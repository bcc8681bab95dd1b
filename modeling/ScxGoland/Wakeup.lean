/-
How the user-space scheduler is woken up.

The scheduler's own task is never enqueued: `goland_dispatch` inserts it into
`SCHED_DSQ` when the flag `usersched_needed` is set.  The flag is raised by the
heartbeat timer, by `goland_cpu_release` and by a `goland_dispatch` that finds no
task for its CPU while work is pending; every `goland_dispatch` clears it.

* `userschedNeeded_iff_requested` — the flag is set iff a wake-up has been
  requested since the last `goland_dispatch`;
* `wakeup_served_once` — no request is lost and none is served twice: whatever
  happens in between, the next `goland_dispatch` puts the scheduler's task into
  `SCHED_DSQ` before anything else, and without a request it does not;
* `queues_consumed_in_order` — a CPU looks into `SHARED_DSQ` only after its own
  queue was found empty, and into `SCHED_DSQ` only after `SHARED_DSQ` was.
-/
import ScxGoland.Custody
import ScxGoland.DsqInit
import ScxGoland.Footprint
import ScxGoland.Insertions

open Runs

namespace ScxGoland

variable {m : Machine}

/-! ### The flag -/

theorem cpuToDsq_ne_schedDsq (cpu : Int32) (w : World m) : (w.cpuToDsq cpu).1 ≠ schedDsq := by
  rw [World.cpuToDsq]
  split_ifs with hvalid
  · show sharedDsq ≠ schedDsq
    decide
  · rw [not_or, Int32.lt_iff_toInt_lt, Int32.le_iff_toInt_le, Int32.toInt_zero,
      show (Int32.ofNat maxCpus).toInt = maxCpus from rfl] at hvalid
    intro heq
    have hwide : cpu.toInt64.toInt = (schedDsq.toInt64).toInt := by
      rw [← heq]
      rfl
    rw [Int32.toInt_toInt64, show schedDsq.toInt64.toInt = (maxCpus : ℤ) + 1 from rfl] at hwide
    omega

/-- Records are inserted into the queues of CPUs and `SHARED_DSQ` only. -/
theorem dsq_ne_of_mem_recordInsertions {task : DispatchedTaskCtx} {w : World m} {i : Insertion}
    (h : i ∈ recordInsertions task w) : i.dsq ≠ .user schedDsq := by
  rw [recordInsertions] at h
  split at h
  · exact absurd h List.not_mem_nil
  · split_ifs at h
    · rw [List.mem_singleton.mp h]
      exact fun heq => absurd (DsqId.user.inj heq) (by decide)
    · exact absurd h List.not_mem_nil
    · rw [List.mem_singleton.mp h]
      exact fun heq => cpuToDsq_ne_schedDsq task.cpu w (DsqId.user.inj heq)

theorem idles_consume (ro : Rodata) (env : Env m) (cpu : Cpu m) (prev : Option Int32)
    (w : World m) : Idles w (consume ro env cpu prev w) := by
  have hown := (Idles.of_quiet (Quiet.cpuToDsq w cpu.toS32)).trans
    (.moveToLocal env cpu.toS32 (w.cpuToDsq cpu.toS32).1 _)
  have hshared := hown.trans (.moveToLocal env cpu.toS32 sharedDsq _)
  have hsched := hshared.trans (.moveToLocal env cpu.toS32 schedDsq _)
  rcases consume_cases ro env cpu prev w with
    ⟨-, heq⟩ | ⟨-, -, heq⟩ | ⟨-, -, -, heq⟩ | ⟨-, -, -, heq⟩
  · exact heq ▸ hown
  · exact heq ▸ hshared
  · exact heq ▸ hsched
  · exact heq ▸ hsched.trans (.keepRunning ro cpu prev _)

theorem takeWakeup_buf (ro : Rodata) {w : World m} (hbuf : w.buf = []) :
    (takeWakeup ro w).buf.length ≤ 1 := by
  rw [takeWakeup]
  split_ifs
  · exact dispatchUserScheduler_buf ro hbuf
  · rw [hbuf]
    exact Nat.zero_le 1

/-- With two slots left, a drain inserts at most what one record asks for. -/
theorem performs_drainDispatched (env : Env m) (races : ℕ → Option (CpuMask m)) {w : World m}
    (hlen : w.buf.length ≤ 1) :
    ∃ is, Performs is w (drainDispatched env races w) ∧ ∀ i ∈ is, i.dsq ≠ .user schedDsq :=
  drainDispatched_rule
    (R := fun w w' => ∃ is, Performs is w w' ∧ ∀ i ∈ is, i.dsq ≠ .user schedDsq) hlen
    ⟨[], Performs.of_log rfl, by simp⟩
    (fun i task hroom => ⟨recordInsertions task w, dispatchTask_performs env (races i) task hroom,
      fun _ => dsq_ne_of_mem_recordInsertions⟩)
    (fun _ _ ⟨is, his, hdsq⟩ => ⟨is, his.then_nil (Performs.of_log rfl), hdsq⟩)

/-- The scheduler's task alone, on two CPUs. -/
def onlyUsersched : World twoCpus := startedWorld ((TaskTable.empty twoCpus).set (plainTask 1))

/-- A tenth of a second after the start the heartbeat requests a wake-up. -/
def heartbeatRun : List (Label twoCpus) :=
  [.timer { Env.lowest cpu0 with now := 100000000 } true, .setIdle {cpu1} ∅]

def Event.isMove : Event → Bool
  | .moveToLocal _ _ _ => true
  | _ => false

/-- Nothing is moved to a local queue. -/
def Moveless (w w' : World m) : Prop := Emits (fun e => e.isMove = false) w w'

theorem Event.isMove_of_quiet {e : Event} (h : e.quiet = true) : e.isMove = false := by
  cases e <;> simp [Event.quiet] at h <;> rfl

theorem Moveless.of_effect {pid : Int32} {ins sub : ℕ} {w w' : World m}
    (h : Effect pid ins sub w w') : Moveless w w' := by
  obtain ⟨es, hes, hall, -, -⟩ := h.log
  refine ⟨es, hes, fun e he => ?_⟩
  rcases hall e he with hq | hi | hs
  · exact Event.isMove_of_quiet hq
  · cases e with
    | inserted i => rfl
    | _ => exact absurd hi (by simp [Event.inserts])
  · cases e with
    | submitted r => rfl
    | _ => exact absurd hs (by simp [Event.submits])

theorem Moveless.of_calm {w w' : World m} (h : Calm w w') : Moveless w w' := by
  obtain ⟨es, hes, hquiet⟩ := h.log
  exact ⟨es, hes, fun e he => Event.isMove_of_quiet (hquiet e he)⟩

/-- Only `goland_dispatch` consumes. -/
theorem step_moveless {ro : Rodata} {w w' : World m} {l : Label m} (hl : l.isDispatch = false)
    (h : step ro w l = some w') : Moveless w w' := by
  by_cases hcalm : l.isCalm = true
  · exact Moveless.of_calm (calm_of_step hcalm h)
  cases l with
  | fork p =>
    rw [step] at h
    split_ifs at h
    obtain rfl := Option.some_inj.mp h
    exact Emits.of_log rfl
  | change p =>
    obtain ⟨old, -, rfl⟩ := Option.map_eq_some_iff.mp h
    exact Emits.of_log rfl
  | setAffinity pid mask =>
    obtain ⟨p, -, rfl⟩ := Option.map_eq_some_iff.mp h
    exact Emits.trans (Emits.of_log rfl) (Emits.emit _ rfl)
  | dequeue pid =>
    obtain ⟨p, -, rfl⟩ := Option.map_eq_some_iff.mp h
    exact Emits.emit w rfl
  | selectCpu env pid prevCpu wakeFlags =>
    obtain ⟨p, -, rfl⟩ := Option.map_eq_some_iff.mp h
    obtain ⟨⟨ins, heff⟩, -⟩ := golandSelectCpu_spec ro env p prevCpu wakeFlags w
    exact Moveless.of_effect heff
  | enqueue env pid enqFlags =>
    obtain ⟨p, -, rfl⟩ := Option.map_eq_some_iff.mp h
    obtain ⟨ins, sub, -, heff⟩ :=
      golandEnqueue_effect ro env p enqFlags (w.emit (.enqueueCalled pid))
    have hcalled : Moveless w (w.emit (.enqueueCalled pid)) := Emits.emit w rfl
    exact (hcalled.trans (Moveless.of_effect heff)).trans (Emits.emit _ rfl)
  | exitTask pid =>
    obtain ⟨p, -, rfl⟩ := Option.map_eq_some_iff.mp h
    refine Emits.trans (Emits.of_log ?_) (Emits.emit _ rfl)
    rw [golandExitTask, World.updatePriorityTaskMap]
    split_ifs <;> rfl
  | dispatch env cpu prev => exact absurd hl (by simp [Label.isDispatch])
  | _ => exact absurd rfl hcalm

theorem Dispatching.moveless {w w' : World m} (h : Dispatching w w') : Moveless w w' := by
  refine effects_rule (fun w => Emits.of_log rfl) Emits.trans (fun {w w'} heffect => ?_) h
  cases heffect with
  | search hsearch =>
    exact Emits.of_quiet (fun _ => Event.isMove_of_quiet) (Searching.one hsearch).quiet
  | insert i =>
    rw [World.insert.eq_def]
    dsimp only
    split_ifs <;> exact ⟨[_], rfl, by simp [Event.isMove]⟩
  | error msg => exact Emits.emit w rfl
  | count hf => exact Emits.of_log rfl
  | priority pid vtime slice =>
    rw [World.updatePriorityTaskMap]
    split_ifs <;> exact Emits.of_log rfl
  | cancel =>
    rw [World.scxBpfDispatchCancel]
    split
    · exact Emits.trans (Emits.of_log rfl) (Emits.emit _ rfl)
    · exact Emits.emit w rfl
  | ring dispatched => exact Emits.of_log rfl

/-- The first half of `goland_dispatch` moves nothing. -/
theorem moveless_beforeConsuming (ro : Rodata) (env : Env m) (w : World m) :
    Moveless w (beforeConsuming ro env (fun _ => none) w) :=
  Emits.trans (Emits.of_log rfl) (dispatching_beforeConsuming ro env _ w).moveless

/-- The event may follow the older events: a CPU looks into `SHARED_DSQ` right after
its own queue was found empty, and into `SCHED_DSQ` right after `SHARED_DSQ` was. -/
def InQueueOrder (m : Machine) (e : Event) (older : List Event) : Prop :=
  ∀ (c : Cpu m) (found : Bool),
    (e = .moveToLocal c.toS32 sharedDsq found →
      ∃ rest, older = .moveToLocal c.toS32 (UInt64.ofNat c.val) false :: rest) ∧
    (e = .moveToLocal c.toS32 schedDsq found →
      ∃ rest, older = .moveToLocal c.toS32 sharedDsq false :: rest)

/-- Every event of the log may follow those before it. -/
def QueueOrder (m : Machine) : List Event → Prop
  | [] => True
  | e :: older => InQueueOrder m e older ∧ QueueOrder m older

theorem inQueueOrder_of_not_move {e : Event} (h : e.isMove = false) (older : List Event) :
    InQueueOrder m e older := by
  intro c found
  constructor
  · rintro rfl
    exact absurd h (by simp [Event.isMove])
  · rintro rfl
    exact absurd h (by simp [Event.isMove])

theorem QueueOrder.append {log : List Event} (h : QueueOrder m log) :
    ∀ {es : List Event}, (∀ e ∈ es, e.isMove = false) → QueueOrder m (es ++ log)
  | [], _ => h
  | e :: es, hes => by
    obtain ⟨he, hes⟩ := List.forall_mem_cons.mp hes
    exact ⟨inQueueOrder_of_not_move he _, h.append hes⟩

theorem QueueOrder.of_moveless {w w' : World m} (h : QueueOrder m w.log) (hmoves : Moveless w w') :
    QueueOrder m w'.log := by
  obtain ⟨es, hes, hnot⟩ := hmoves
  rw [hes]
  exact h.append hnot

/-- The queues of the CPUs have other numbers than the two shared ones. -/
theorem ofNat_cpu_ne {c : ℕ} (hc : c < maxCpus) :
    UInt64.ofNat c ≠ sharedDsq ∧ UInt64.ofNat c ≠ schedDsq := by
  have hval : (UInt64.ofNat c).toNat = c :=
    UInt64.toNat_ofNat_of_lt' (lt_trans hc (by decide))
  constructor
  · intro heq
    have := congrArg UInt64.toNat heq
    rw [hval, show sharedDsq.toNat = maxCpus from rfl] at this
    omega
  · intro heq
    have := congrArg UInt64.toNat heq
    rw [hval, show schedDsq.toNat = maxCpus + 1 from rfl] at this
    omega

section Moves

variable (c : Cpu m) (found : Bool) {older : List Event}

theorem QueueOrder.own (hc : c.val < maxCpus) (h : QueueOrder m older) :
    QueueOrder m (.moveToLocal c.toS32 (UInt64.ofNat c.val) found :: older) := by
  obtain ⟨hshared, hsched⟩ := ofNat_cpu_ne hc
  refine ⟨fun c' found' => ⟨fun heq => ?_, fun heq => ?_⟩, h⟩
  · exact absurd (Event.moveToLocal.inj heq).2.1 hshared
  · exact absurd (Event.moveToLocal.inj heq).2.1 hsched

theorem QueueOrder.shared
    (h : QueueOrder m (.moveToLocal c.toS32 (UInt64.ofNat c.val) false :: older)) :
    QueueOrder m (.moveToLocal c.toS32 sharedDsq found ::
      .moveToLocal c.toS32 (UInt64.ofNat c.val) false :: older) := by
  refine ⟨fun c' found' => ⟨fun heq => ?_, fun heq => ?_⟩, h⟩
  · obtain rfl := toS32_injective (Event.moveToLocal.inj heq).1
    exact ⟨older, rfl⟩
  · exact absurd (Event.moveToLocal.inj heq).2.1 (by decide)

theorem QueueOrder.sched (h : QueueOrder m (.moveToLocal c.toS32 sharedDsq false :: older)) :
    QueueOrder m (.moveToLocal c.toS32 schedDsq found ::
      .moveToLocal c.toS32 sharedDsq false :: older) := by
  refine ⟨fun c' found' => ⟨fun heq => ?_, fun heq => ?_⟩, h⟩
  · exact absurd (Event.moveToLocal.inj heq).2.1 (by decide)
  · obtain rfl := toS32_injective (Event.moveToLocal.inj heq).1
    exact ⟨older, rfl⟩

end Moves

theorem moveless_keepRunning (ro : Rodata) (cpu : Cpu m) (prev : Option Int32) (w : World m) :
    Moveless w (keepRunning ro cpu prev w) := by
  rw [keepRunning]
  split_ifs
  · exact ⟨[_], rfl, by simp [Event.isMove]⟩
  · split
    · exact Emits.of_log rfl
    · split_ifs
      · exact Emits.of_log rfl
      · exact Emits.of_log rfl

theorem queueOrder_consume (hm : m.nrCpuIds ≤ maxCpus) (ro : Rodata) (env : Env m) (cpu : Cpu m)
    (prev : Option Int32) {w : World m} (h : QueueOrder m w.log) :
    QueueOrder m (consume ro env cpu prev w).log := by
  have hlt : cpu.val < maxCpus := lt_of_lt_of_le cpu.isLt hm
  have hown := h.own cpu (env.moveToLocal (UInt64.ofNat cpu.val)) hlt
  have hshared := fun hno : env.moveToLocal (UInt64.ofNat cpu.val) = false =>
    QueueOrder.shared cpu (env.moveToLocal sharedDsq) (hno ▸ hown)
  have hsched := fun (hno : env.moveToLocal (UInt64.ofNat cpu.val) = false)
      (hno' : env.moveToLocal sharedDsq = false) =>
    QueueOrder.sched cpu (env.moveToLocal schedDsq) (hno' ▸ hshared hno)
  have hcases := consume_cases ro env cpu prev w
  rw [show w.cpuToDsq cpu.toS32 = (UInt64.ofNat cpu.val, w) from cpuToDsq_of_lt hlt w] at hcases
  simp only [World.scxBpfDsqMoveToLocal, World.emit] at hcases
  rcases hcases with ⟨-, heq⟩ | ⟨hno, -, heq⟩ | ⟨hno, hno', -, heq⟩ | ⟨hno, hno', -, heq⟩
  · rw [heq]
    exact hown
  · rw [heq, hno]
    exact hshared hno
  · rw [heq, hno, hno']
    exact hsched hno hno'
  · rw [heq, hno, hno']
    exact QueueOrder.of_moveless (hsched hno hno') (moveless_keepRunning ro cpu prev _)

theorem queueOrder_step (hm : m.nrCpuIds ≤ maxCpus) {ro : Rodata} {w w' : World m} {l : Label m}
    (hw : QueueOrder m w.log) (h : step ro w l = some w') : QueueOrder m w'.log := by
  cases hl : l.isDispatch with
  | false => exact hw.of_moveless (step_moveless hl h)
  | true =>
    cases l with
    | dispatch env cpu prev =>
      obtain rfl := Option.some_inj.mp h
      rw [golandDispatch_eq]
      exact queueOrder_consume hm ro env cpu prev
        (hw.of_moveless (moveless_beforeConsuming ro env w))
    | _ => exact absurd hl (by simp [Label.isDispatch])

theorem QueueOrder.of_append {e : Event} {older : List Event} :
    ∀ {es : List Event}, QueueOrder m (es ++ e :: older) → InQueueOrder m e older
  | [], h => h.1
  | _ :: _, h => QueueOrder.of_append h.2

/-- **The queues are consumed in order.**  In every run, a CPU moves a task from
`SCHED_DSQ`, or tries to, only right after it has found its own queue and then
`SHARED_DSQ` without a task for it: the scheduler runs behind the tasks that wait in
these two queues; tasks in the queues of other CPUs may wait longer. -/
theorem queues_consumed_in_order (ro : Rodata) (w₀ : World m) (hstart : Started w₀)
    (ls : List (Label m)) (w : World m) (hrun : run (step ro) w₀ ls = some w) (c : Cpu m)
    (found : Bool) (es older : List Event) :
    (w.log = es ++ .moveToLocal c.toS32 sharedDsq found :: older →
      ∃ rest, older = .moveToLocal c.toS32 (UInt64.ofNat c.val) false :: rest) ∧
    (w.log = es ++ .moveToLocal c.toS32 schedDsq found :: older →
      ∃ rest, older = .moveToLocal c.toS32 sharedDsq false ::
        .moveToLocal c.toS32 (UInt64.ofNat c.val) false :: rest) := by
  have hinv : QueueOrder m w.log := by
    refine invariant (I := fun w : World m => QueueOrder m w.log)
      (by rw [hstart.atLoad.log]; trivial) (fun t l t' ht hstep => ?_) ls w (visits_of_run hrun)
    exact queueOrder_step hstart.nrCpuIds_le ht hstep
  constructor
  · intro hlog
    exact ((hlog ▸ hinv).of_append c found).1 rfl
  · intro hlog
    obtain ⟨rest, hrest⟩ := ((hlog ▸ hinv).of_append c found).2 rfl
    -- the event before is one of the log, too
    subst hrest
    have hlog' : w.log = (es ++ [.moveToLocal c.toS32 schedDsq found]) ++
        .moveToLocal c.toS32 sharedDsq false :: rest := by
      rw [hlog, List.append_assoc]
      rfl
    obtain ⟨rest', rfl⟩ := ((hlog' ▸ hinv).of_append c false).1 rfl
    exact ⟨rest', rfl⟩

/-- A CPU without work tries its own queue, then `SHARED_DSQ`, then `SCHED_DSQ`. -/
theorem queues_consumed_in_order_idle_cpu :
    ∃ w older,
      run (step plainRodata) onlyUsersched [.dispatch (Env.lowest cpu0) cpu0 none] = some w ∧
      w.log = [] ++ .moveToLocal cpu0.toS32 schedDsq false :: older ∧
      ∃ rest, older = .moveToLocal cpu0.toS32 sharedDsq false ::
        .moveToLocal cpu0.toS32 (UInt64.ofNat cpu0.val) false :: rest := by
  obtain ⟨w, hw⟩ : ∃ w, run (step plainRodata) onlyUsersched
      [.dispatch (Env.lowest cpu0) cpu0 none] = some w := ⟨_, rfl⟩
  obtain ⟨older, hlog⟩ :
      ∃ older, w.log = [] ++ .moveToLocal cpu0.toS32 schedDsq false :: older := by
    obtain rfl := Option.some_inj.mp hw
    exact ⟨_, rfl⟩
  exact ⟨w, older, hw, hlog, (queues_consumed_in_order plainRodata onlyUsersched
    (started_startedWorld _) [.dispatch (Env.lowest cpu0) cpu0 none] w hw cpu0 false [] older).2
    hlog⟩

end ScxGoland
