/-
The order in which user space serves the tasks.

The goroutine takes tasks out of the queue only while it refills an empty pool,
and then serves the whole pool before it looks at the queue again.  So the tasks
are served in batches, batch after batch in the order of arrival.  Within a batch the
order is that of the deadlines, then of the timestamps, which nothing sets, and then
of the pids; only tasks that agree in all three stay in the order of arrival.

* `served_in_batches` — the tasks sent in a run, batch by batch;
* `batch_sent_in_time` — a batch that is being served is sent within five steps of the
  goroutine for each of its tasks;
* `bounded_overtaking` — while a task waits, no more than `taskPoolSize - 2` tasks that
  were taken from the queue after it are served.
-/
import ScxGoland.TaskBalance

open Runs SortedRing

namespace ScxGoland

/-! ### The live slots of the pool -/

/-- A task that is drained is inserted into the live slots by its key. -/
theorem live_drainOne {s s' : UserState} {held : List Task} {t : QueuedTask} {task : Task}
    {ok : Bool} (h : PoolInv s.pool held) (hroom : s.pool.hasRoom)
    (hone : drainOne t s = some (task, ok, s')) :
    s'.pool.live = insert taskKey task s.pool.live :=
  (drainOne_spec h hroom hone).2.2.sorted.unique (h.sorted.insert task)

/-- `GetTaskFromPool` takes the first live slot. -/
theorem live_getTaskFromPool {p : Pool} {held : List Task} {t : QueuedTask} (h : PoolInv p held)
    (hget : (getTaskFromPool p).1 = some t) :
    ∃ task, task.queuedTask = t ∧ p.live = task :: (getTaskFromPool p).2.live := by
  rcases getTaskFromPool_spec h with ⟨-, hnone⟩ | ⟨hmem, -, hsome, hinv⟩
  · rw [hnone] at hget
    exact absurd hget (by simp)
  · rw [hget, Option.some_inj] at hsome
    refine ⟨p.slots p.head, hsome.symm, ?_⟩
    have hpos : 0 < held.length := List.length_pos_of_mem hmem
    have hlive : p.live = p.slots p.head ::
        window taskPoolSize p.slots (slot taskPoolSize p.head 1) (held.length - 1) := by
      rw [h.live_eq, ← window_cons p.slots _ h.head_lt, Nat.sub_add_cancel hpos]
    have hsorted := h.sorted
    rw [hlive] at hsorted ⊢
    rw [hinv.sorted.unique hsorted.tail]

/-- An empty pool is found empty. -/
theorem live_of_getTaskFromPool_none {p : Pool} {held : List Task} (h : PoolInv p held)
    (hget : (getTaskFromPool p).1 = none) : p.live = [] := by
  rcases getTaskFromPool_spec h with ⟨hnil, -⟩ | ⟨-, -, hsome, -⟩
  · exact List.perm_nil.mp (hnil ▸ h.sorted.perm)
  · rw [hget] at hsome
    exact absurd hsome (by simp)

/-! ### Filling and serving -/

/-- The goroutine is refilling the pool. -/
def Pc.filling : Pc → Bool
  | .refill | .drain _ | .blocking => true
  | _ => false

/-- At least ten tasks, and no more than the pool can hold. -/
abbrev TaskBatch := Batch taskKey 10 (taskPoolSize - 1)

/-- The tasks served so far: those of the batches that are done, and those of the
batch in the pool. -/
def servedTasks (done : List TaskBatch) (served : List Task) : List QueuedTask :=
  (done.flatMap Batch.served ++ served).map Task.queuedTask

/-- The call of `DispatchTask` that a step completes: the task, and whether it is sent. -/
def completedCall (s : SchedState) : SchedLabel → List (QueuedTask × Bool)
  | .go o =>
    match s.pc with
    | .dispatch t _ => if o.urbError then [(t, false)] else []
    | .send t _ => [(t, true)]
    | _ => []
  | _ => []

/-- The calls of `DispatchTask` that a run completes, in order. -/
def dispatchCalls (size : RingSize) (ls : List SchedLabel) : List (QueuedTask × Bool) :=
  outputs (schedStep size) completedCall .init ls

/-- Of the batch in the pool, `arrived` have been taken from the queue and `served` from
the pool; `calls` are the calls of `DispatchTask` so far. -/
structure Batched (calls : List (QueuedTask × Bool)) (s : SchedState) (done : List TaskBatch)
    (arrived served : List Task) : Prop where
  pooled : ∃ held, Pooled s.user.pool held
  taken : s.taken.map QueuedTask.unstamped =
    (done.flatMap Batch.arrived ++ arrived).map fun t => t.queuedTask.unstamped
  sorted : StablySorted taskKey arrived (served ++ s.user.pool.live)
  length_le : arrived.length ≤ taskPoolSize - 1
  filling : s.pc.filling = true → served = []
  serving : s.pc.filling = false → arrived = [] ∨ 10 ≤ arrived.length
  sent : s.sent.map Prod.fst = (calls.filter Prod.snd).map Prod.fst
  called : calls.map Prod.fst ++ s.pc.hand = servedTasks done served

namespace Batched

variable {calls : List (QueuedTask × Bool)} {s s' : SchedState} {done : List TaskBatch}
  {arrived served : List Task}

/-- A step that moves the program counter within a phase, or to a phase that may
begin, and leaves the tasks alone. -/
theorem of_pc (h : Batched calls s done arrived served) (huser : s'.user = s.user)
    (htaken : s'.taken = s.taken) (hsent : s'.sent = s.sent) (hhand : s'.pc.hand = s.pc.hand)
    (hphase : s'.pc.filling = s.pc.filling ∨
      (s'.pc.filling = false ∧ (arrived = [] ∨ 10 ≤ arrived.length))) :
    Batched calls s' done arrived served := by
  refine ⟨huser ▸ h.pooled, htaken ▸ h.taken, huser ▸ h.sorted, h.length_le, ?_, ?_, hsent ▸ h.sent,
    hhand ▸ h.called⟩
  · rcases hphase with hsame | ⟨hserve, -⟩
    · exact hsame ▸ h.filling
    · simp [hserve]
  · rcases hphase with hsame | ⟨-, hlen⟩
    · exact hsame ▸ h.serving
    · exact fun _ => hlen

/-- An empty pool begins a new batch. -/
theorem finish (h : Batched calls s done arrived served) (hpc : s.pc = .head)
    (hempty : s.user.pool.live = []) :
    ∃ done', Batched calls { s with pc := .refill } done' [] [] := by
  have hsorted := h.sorted
  rw [hempty, List.append_nil] at hsorted
  have hempty' : StablySorted taskKey [] ([] ++ s.user.pool.live) := by
    rw [hempty]
    exact StablySorted.nil
  have hhand : Pc.refill.hand = s.pc.hand := by rw [hpc]; rfl
  rcases h.serving (by rw [hpc]; rfl) with rfl | hlen
  · -- nothing was ever taken into the pool
    obtain rfl : served = [] := List.perm_nil.mp hsorted.perm
    exact ⟨done, h.pooled, h.taken, hempty', by simp, fun _ => rfl, fun _ => Or.inl rfl, h.sent,
      by rw [hhand]; exact h.called⟩
  · have hserved : servedTasks (done ++ [⟨arrived, served, hsorted, hlen, h.length_le⟩]) [] =
        servedTasks done served := by simp [servedTasks]
    refine ⟨done ++ [⟨arrived, served, hsorted, hlen, h.length_le⟩], h.pooled, ?_, hempty',
      by simp, fun _ => rfl, fun _ => Or.inl rfl, h.sent, ?_⟩
    · exact h.taken.trans (by simp)
    · rw [hhand, hserved]
      exact h.called

/-- The first task of the pool is served. -/
theorem get (h : Batched calls s done arrived served) (hpc : s.pc = .head) {t : QueuedTask}
    (hget : (getTaskFromPool s.user.pool).1 = some t) :
    ∃ task, Batched calls
      { s with user := { s.user with pool := (getTaskFromPool s.user.pool).2 }, pc := .select t }
      done arrived (served ++ [task]) := by
  obtain ⟨held, hpooled⟩ := h.pooled
  obtain ⟨task, rfl, hlive⟩ := live_getTaskFromPool hpooled.inv hget
  have hserved : servedTasks done (served ++ [task]) =
      servedTasks done served ++ [task.queuedTask] := by simp [servedTasks]
  have hcalled := h.called
  rw [hpc, show Pc.head.hand = [] from rfl, List.append_nil] at hcalled
  refine ⟨task, ⟨_, (hpooled.get hget).2.2.2⟩, h.taken, ?_, h.length_le, by simp [Pc.filling],
    fun _ => h.serving (by rw [hpc]; rfl), h.sent, ?_⟩
  · have hsorted := h.sorted
    rw [hlive] at hsorted
    rwa [List.append_assoc]
  · rw [hserved, ← hcalled]
    rfl

/-- A task is taken from the queue into the pool. -/
theorem drained (h : Batched calls s done arrived served) {count : ℕ} (hpc : s.pc = .drain count)
    (hroom : s.user.pool.hasRoom) (hpid : (dequeueTask s.q).1.pid ≠ -1) {task : Task} {b : Bool}
    {user : UserState} (hone : drainOne (dequeueTask s.q).1 s.user = some (task, b, user)) :
    Batched calls { s with
      q := (dequeueTask s.q).2
      user := user
      pc := .drain (count + 1)
      taken := s.taken ++ [(dequeueTask s.q).1] } done (arrived ++ [task]) served := by
  obtain ⟨held, hpooled⟩ := h.pooled
  obtain ⟨hsame, hpooled'⟩ := hpooled.drainOne hroom hpid hone
  obtain rfl : served = [] := h.filling (by rw [hpc]; rfl)
  have hcalled := h.called
  rw [hpc] at hcalled
  have hsorted : StablySorted taskKey (arrived ++ [task]) user.pool.live := by
    rw [live_drainOne hpooled.inv hroom hone]
    exact StablySorted.insert h.sorted task
  refine ⟨⟨_, hpooled'⟩, ?_, hsorted, ?_, fun _ => rfl, by simp [Pc.filling], h.sent, hcalled⟩
  · simp [h.taken, hsame]
  · -- the batch is what the pool holds
    have hlen := hpooled'.inv.length_lt
    rw [← hpooled'.inv.sorted.perm.length_eq, hsorted.perm.length_eq] at hlen
    exact Nat.le_pred_of_lt hlen

/-- The task in hand is sent, or dropped: a call of `DispatchTask` completes. -/
theorem complete (h : Batched calls s done arrived served) {t : QueuedTask}
    (hhand : s.pc.hand = [t]) (hfill : s.pc.filling = false) {b : Bool} (huser : s'.user = s.user)
    (htaken : s'.taken = s.taken) (hfill' : s'.pc.filling = false) (hhand' : s'.pc.hand = [])
    (hsent : s'.sent.map Prod.fst = s.sent.map Prod.fst ++ (if b then [t] else [])) :
    Batched (calls ++ [(t, b)]) s' done arrived served := by
  refine ⟨huser ▸ h.pooled, htaken ▸ h.taken, huser ▸ h.sorted, h.length_le, by simp [hfill'],
    fun _ => h.serving hfill, ?_, ?_⟩
  · rw [hsent, h.sent, List.filter_append, List.map_append]
    cases b <;> rfl
  · rw [hhand', List.append_nil, ← h.called, hhand, List.map_append]
    rfl

end Batched

/-- The pool is left for serving only with ten tasks in it. -/
theorem refill_head {size : RingSize} {s s' : SchedState} {o : Outcome} (hpc : s.pc = .refill)
    (hstep : schedStep size s (.go o) = some s') (hhead : s'.pc = .head) :
    ¬ UInt64.ofInt s.user.pool.count < 10 := by
  simp only [schedStep, goStep, hpc, Option.some_inj] at hstep
  subst hstep
  split_ifs at hhead with hlt
  exact hlt

theorem batched_step {calls : List (QueuedTask × Bool)} {size : RingSize} {s s' : SchedState}
    {l : SchedLabel} {done : List TaskBatch} {arrived served : List Task}
    (h : Batched calls s done arrived served) (hstep : schedStep size s l = some s') :
    s'.pc = .panicked ∨
      ∃ done' arrived' served', Batched (calls ++ completedCall s l) s' done' arrived' served' := by
  -- most steps complete no call
  have hquiet : ∀ {done' arrived' served'}, completedCall s l = [] →
      Batched calls s' done' arrived' served' → s'.pc = .panicked ∨ ∃ done' arrived' served',
        Batched (calls ++ completedCall s l) s' done' arrived' served' := by
    intro done' arrived' served' hnone h'
    rw [hnone, List.append_nil]
    exact Or.inr ⟨_, _, _, h'⟩
  cases schedMove_of_step hstep with
  | getNil hpc hget =>
    obtain ⟨held, hpooled⟩ := h.pooled
    obtain ⟨done', hbatch⟩ := h.finish hpc (live_of_getTaskFromPool_none hpooled.inv hget)
    exact hquiet (by rw [completedCall, hpc]) hbatch
  | get hpc hget hpid =>
    obtain ⟨task, hbatch⟩ := h.get hpc hget
    exact hquiet (by rw [completedCall, hpc]) hbatch
  | getInvalid hpc hget hpid =>
    obtain ⟨held, hpooled⟩ := h.pooled
    exact absurd hpid (hpooled.get hget).1
  | refill hpc hto =>
    refine hquiet (by rw [completedCall, hpc]) (h.of_pc rfl rfl rfl ?_ ?_)
    · rw [hpc]
      rcases hto with rfl | rfl <;> rfl
    · rcases hto with rfl | rfl
      · -- nothing of the batch is served yet: it is what the pool counts
        obtain ⟨held, hpooled⟩ := h.pooled
        obtain rfl : served = [] := h.filling (by rw [hpc]; rfl)
        have hcount := refill_head hpc hstep rfl
        rw [UInt64.lt_iff_toNat_lt, hpooled.toNat_ofInt_count, not_lt,
          ← hpooled.inv.sorted.perm.length_eq] at hcount
        have hlen : s.user.pool.live.length = arrived.length := h.sorted.perm.length_eq
        exact Or.inr ⟨rfl, Or.inr (hlen ▸ hcount)⟩
      · exact Or.inl (by rw [hpc]; rfl)
  | drained hpc hroom hpid hone =>
    exact hquiet (by rw [completedCall, hpc]) (h.drained hpc hroom hpid hone)
  | @drainEmpty o count hpc hroom hpid =>
    have hdrain : Batched calls (afterDrain count { s with q := (dequeueTask s.q).2 }) done arrived
        served := by
      rw [afterDrain]
      split_ifs
      · exact h.of_pc rfl rfl rfl (by rw [hpc]; rfl) (Or.inl (by rw [hpc]; rfl))
      · exact h.of_pc rfl rfl rfl (by rw [hpc]; rfl) (Or.inl (by rw [hpc]; rfl))
    exact hquiet (by rw [completedCall, hpc]) hdrain
  | drainFull hpc hroom =>
    exact hquiet (by rw [completedCall, hpc])
      (h.of_pc rfl rfl rfl (by rw [hpc]; rfl) (Or.inl (by rw [hpc]; rfl)))
  | drainPanics hpc => exact Or.inl rfl
  | selectPanics hpc => exact Or.inl rfl
  | peek hpc hq =>
    exact hquiet (by rw [completedCall, hpc]) (h.of_pc rfl rfl rfl rfl (Or.inl rfl))
  | resend hpc hq =>
    exact hquiet (by rw [completedCall, hpc])
      (h.of_pc rfl rfl rfl (by rw [hpc]; rfl) (Or.inl (by rw [hpc]; rfl)))
  | select hpc hpid =>
    exact hquiet (by rw [completedCall, hpc])
      (h.of_pc rfl rfl rfl (by rw [hpc]; rfl) (Or.inl (by rw [hpc]; rfl)))
  | dispatch hpc hsent =>
    exact hquiet (by rw [completedCall, hpc]; simp [hsent])
      (h.of_pc rfl rfl rfl (by rw [hpc]; rfl) (Or.inl (by rw [hpc]; rfl)))
  | @dispatchFails o t d hpc herr =>
    rw [show completedCall s (.go o) = [(t, false)] by rw [completedCall, hpc]; simp [herr]]
    exact Or.inr ⟨done, arrived, served, h.complete (by rw [hpc]; rfl) (by rw [hpc]; rfl) rfl rfl
      rfl rfl (List.append_nil _).symm⟩
  | @send o t d hpc =>
    rw [show completedCall s (.go o) = [(t, true)] by rw [completedCall, hpc]]
    exact Or.inr ⟨done, arrived, served, h.complete (by rw [hpc]; rfl) (by rw [hpc]; rfl) rfl rfl
      rfl rfl List.map_append⟩
  | notify hpc =>
    exact hquiet (by rw [completedCall, hpc])
      (h.of_pc rfl rfl rfl (by rw [hpc]; rfl) (Or.inl (by rw [hpc]; rfl)))
  | _ => exact hquiet rfl (h.of_pc rfl rfl rfl rfl (Or.inl rfl))

theorem panicked_step {size : RingSize} {s s' : SchedState} {l : SchedLabel}
    (hpc : s.pc = .panicked) (hstep : schedStep size s l = some s') : s'.pc = .panicked := by
  cases l with
  | go o =>
    simp only [schedStep, goStep, hpc] at hstep
    exact absurd hstep (by simp)
  | _ =>
    cases schedMove_of_step hstep
    exact hpc

theorem batched_run {size : RingSize} {ls : List SchedLabel} {s : SchedState}
    (hrun : run (schedStep size) .init ls = some s) (hpc : s.pc ≠ .panicked) :
    ∃ done arrived served, Batched (dispatchCalls size ls) s done arrived served := by
  have hinit : Batched [] .init [] [] [] :=
    ⟨⟨[], PoolInv.empty, by simp⟩, rfl, StablySorted.nil, by simp, fun _ => rfl,
      fun _ => Or.inl rfl, rfl, rfl⟩
  have hinv : s.pc = .panicked ∨
      ∃ done arrived served, Batched (dispatchCalls size ls) s done arrived served := by
    refine invariant_outputs (I := fun calls s => s.pc = .panicked ∨
      ∃ done arrived served, Batched calls s done arrived served)
      (Or.inr ⟨[], [], [], hinit⟩) ?_ hrun
    rintro calls s l s' (hpanic | ⟨done, arrived, served, h⟩) hstep
    · exact Or.inl (panicked_step hpanic hstep)
    · exact batched_step h hstep
  exact hinv.resolve_left hpc

/-- **Tasks are served in batches.**  In every run, whatever arrives when and whatever
the system calls return, the tasks taken from the queue are those of some batches
of at least ten and at most `taskPoolSize - 1` tasks, one after the other, and of
one that is in the pool.  `DispatchTask` is called for the tasks of the batches, each
sorted by deadline, timestamp and pid, with full ties in the order of arrival, and
for the first ones of the sorted batch in the pool, the last of which may still be in
hand.  The tasks sent are those for which the call did not fail. -/
theorem served_in_batches (size : RingSize) (ls : List SchedLabel) (s : SchedState)
    (hrun : run (schedStep size) .init ls = some s) (hpc : s.pc ≠ .panicked) :
    ∃ (done : List TaskBatch) (arrived served : List Task),
      s.taken.map QueuedTask.unstamped =
        (done.flatMap Batch.arrived ++ arrived).map (fun t => t.queuedTask.unstamped) ∧
      StablySorted taskKey arrived (served ++ s.user.pool.live) ∧
      (served ≠ [] → 10 ≤ arrived.length) ∧ arrived.length ≤ taskPoolSize - 1 ∧
      (dispatchCalls size ls).map Prod.fst ++ s.pc.hand = servedTasks done served ∧
      s.sent.map Prod.fst = ((dispatchCalls size ls).filter Prod.snd).map Prod.fst := by
  obtain ⟨done, arrived, served, h⟩ := batched_run hrun hpc
  refine ⟨done, arrived, served, h.taken, h.sorted, fun hne => ?_, h.length_le, h.called, h.sent⟩
  rcases hphase : s.pc.filling with _ | _
  · rcases h.serving hphase with rfl | hlen
    · -- nothing is served of nothing
      have hnil := List.perm_nil.mp h.sorted.perm
      exact absurd (List.append_eq_nil_iff.mp hnil).1 hne
    · exact hlen
  · exact absurd (h.filling hphase) hne

/-- Ten tasks arrive and are drained; the first is dropped, and nine are sent. -/
def nineSent : List SchedLabel :=
  tenTasks ⟨some 0, true⟩ ++ List.replicate 46 (.go ⟨some 0, false⟩)

/-- The batch of ten tasks has been served, all but the dropped one. -/
theorem served_in_batches_nine_sent :
    ∃ s, run (schedStep ringSize) .init nineSent = some s ∧ s.pc ≠ .panicked ∧
      (dispatchCalls ringSize nineSent).length = 10 ∧ s.sent.length = 9 ∧
      ∃ (done : List TaskBatch) (arrived served : List Task),
        StablySorted taskKey arrived (served ++ s.user.pool.live) ∧
        (dispatchCalls ringSize nineSent).map Prod.fst ++ s.pc.hand = servedTasks done served ∧
        s.sent.map Prod.fst = ((dispatchCalls ringSize nineSent).filter Prod.snd).map Prod.fst := by
  have hfacts : (run (schedStep ringSize) .init nineSent).map
      (fun s => (decide (s.pc ≠ .panicked), s.sent.length)) = some (true, 9) := by decide +kernel
  obtain ⟨s, hs, heq⟩ := Option.map_eq_some_iff.mp hfacts
  rw [Prod.mk.injEq, decide_eq_true_eq] at heq
  obtain ⟨done, arrived, served, -, hsorted, -, -, hcalled, hsent⟩ :=
    served_in_batches ringSize nineSent s hs heq.1
  exact ⟨s, hs, heq.1, by decide +kernel, heq.2, done, arrived, served, hsorted, hcalled, hsent⟩

/-- **Bounded overtaking.**  At any time of any run, of the tasks that were taken from the
queue after one that has not been served yet, `taskPoolSize - 2` at most have been served,
sent or dropped. -/
theorem bounded_overtaking (size : RingSize) (ls : List SchedLabel) (s : SchedState)
    (hrun : run (schedStep size) .init ls = some s) (hpc : s.pc ≠ .panicked) :
    ∃ places, ServedAt (s.taken.map QueuedTask.unstamped) places
        (((dispatchCalls size ls).map Prod.fst ++ s.pc.hand).map QueuedTask.unstamped) ∧
      ∀ j < s.taken.length, j ∉ places → places.countP (j < ·) ≤ taskPoolSize - 2 := by
  obtain ⟨done, arrived, served, h⟩ := batched_run hrun hpc
  have hsub : served.Subperm arrived :=
    (List.sublist_append_left _ _).subperm.trans h.sorted.perm.subperm
  obtain ⟨places, hplaces, hwaits⟩ := exists_overtaken_lt done hsub h.length_le
  have hlen := congrArg List.length h.taken
  rw [List.length_map, List.length_map] at hlen
  refine ⟨places, ?_, fun j hj hnot => Nat.le_of_lt_succ (hwaits j (hlen ▸ hj) hnot)⟩
  have hunstamped := hplaces.map fun t => t.queuedTask.unstamped
  rwa [h.taken, h.called, servedTasks, List.map_map]

/-- Ten tasks arrive; the first of them needs the most time. -/
def longFirst : List SchedLabel :=
  [.submit 0 { recordCtx 7 with execRuntime := 900 } zeroPad, .count 0, .deliver] ++
    (List.range 9).flatMap (fun _ => [.submit 0 (recordCtx 8) zeroPad, .count 0, .deliver]) ++
    List.replicate 58 (.go ⟨some 0, false⟩)

/-- The first task waits, and the nine that arrived after it have been sent. -/
theorem bounded_overtaking_long_first :
    ∃ s places, run (schedStep ringSize) .init longFirst = some s ∧ s.pc ≠ .panicked ∧
      s.sent.length = 9 ∧
      ServedAt (s.taken.map QueuedTask.unstamped) places
        (((dispatchCalls ringSize longFirst).map Prod.fst ++ s.pc.hand).map QueuedTask.unstamped) ∧
      0 < s.taken.length ∧ 0 ∉ places ∧ places.countP (0 < ·) = 9 ∧
      places.countP (0 < ·) ≤ taskPoolSize - 2 := by
  have hfacts : (run (schedStep ringSize) .init longFirst).map (fun s => (decide (s.pc ≠ .panicked),
      s.taken.map (QueuedTask.pid ∘ QueuedTask.unstamped), s.pc.hand.length, s.sent.length)) =
      some (true, 7 :: List.replicate 9 8, 0, 9) := by decide +kernel
  have hcalls : ((dispatchCalls ringSize longFirst).map Prod.fst).map
      (QueuedTask.pid ∘ QueuedTask.unstamped) = List.replicate 9 8 := by decide +kernel
  obtain ⟨s, hs, heq⟩ := Option.map_eq_some_iff.mp hfacts
  simp only [Prod.mk.injEq, decide_eq_true_eq] at heq
  obtain ⟨hpc, htaken, hhand, hsent⟩ := heq
  obtain ⟨places, hplaces, hwaits⟩ := bounded_overtaking ringSize longFirst s hs hpc
  -- the pids tell the first task from the others
  have hpids := hplaces.map QueuedTask.pid
  rw [List.map_map, List.map_map, htaken, List.length_eq_zero_iff.mp hhand, List.append_nil,
    hcalls] at hpids
  have hfirst : 0 ∉ places := by
    intro hmem
    have hseven := List.mem_map_of_mem (f := ((7 :: List.replicate 9 8 : List Int32)[·]?)) hmem
    rw [hpids.elems] at hseven
    exact absurd hseven (by decide)
  have hpos : 0 < s.taken.length := by
    have hlen := congrArg List.length htaken
    rw [List.length_map] at hlen
    exact hlen ▸ Nat.succ_pos _
  refine ⟨s, places, hs, hpc, hsent, hplaces, hpos, hfirst, ?_, hwaits 0 hpos hfirst⟩
  rw [List.countP_eq_length.mpr fun i hi => decide_eq_true (Nat.pos_of_ne_zero fun h0 => ?_)]
  · exact hpids.length_eq
  · exact hfirst (h0 ▸ hi)

/-! ### Progress -/

/-- The steps of the goroutine until it is back at the head of its loop. -/
def Pc.stepsLeft : Pc → ℕ
  | .select _ => 4
  | .dispatch _ _ => 3
  | .send _ _ => 2
  | .notify => 1
  | _ => 0

namespace SchedState

/-- The steps of the goroutine until the pool is empty. -/
def stepsLeft (s : SchedState) : ℕ := 5 * s.user.pool.live.length + s.pc.stepsLeft

/-- The tasks sent once the pool is empty. -/
def planned (s : SchedState) : List QueuedTask :=
  s.sent.map Prod.fst ++ s.pc.hand ++ s.user.pool.live.map Task.queuedTask

/-- The goroutine is serving the pool, which leads to these tasks being sent. -/
structure Serving (plan : List QueuedTask) (s : SchedState) : Prop where
  phase : s.pc.filling = false
  pooled : ∃ held, Pooled s.user.pool held
  planned : s.planned = plan

end SchedState

open SchedState

/-- The step is one of the goroutine. -/
def SchedLabel.isGo : SchedLabel → Bool
  | .go _ => true
  | _ => false

/-- No step of the goroutine finds the user ring buffer in error. -/
def SchedLabel.RingOk (l : SchedLabel) : Prop := ∀ o, l = .go o → o.urbError = false

/-- At the end of a batch everything planned has been sent. -/
theorem Serving.sent {plan : List QueuedTask} {s : SchedState} (h : Serving plan s)
    (hleft : s.stepsLeft = 0) : s.sent.map Prod.fst = plan := by
  have hlive : s.user.pool.live = [] :=
    List.length_eq_zero_iff.mp (by rw [stepsLeft] at hleft; omega)
  have hpc : s.pc.stepsLeft = 0 := by rw [stepsLeft] at hleft; omega
  have hhand : s.pc.hand = [] := by
    cases hs : s.pc <;> first | rfl | (rw [hs] at hpc; exact absurd hpc (by simp [Pc.stepsLeft]))
  rw [← h.planned, SchedState.planned, hhand, hlive, List.append_nil, List.map_nil, List.append_nil]

theorem serving_step {size : RingSize} {plan : List QueuedTask} {s s' : SchedState} {l : SchedLabel}
    (h : Serving plan s) (hleft : s.stepsLeft ≠ 0) (hok : l.RingOk)
    (hstep : schedStep size s l = some s') :
    s'.pc = .panicked ∨
      (Serving plan s' ∧ s'.stepsLeft + (if l.isGo then 1 else 0) = s.stepsLeft) := by
  have hphase := h.phase
  have hplan := h.planned
  rw [SchedState.planned] at hplan
  -- the steps within one round leave the pool alone
  have hround : ∀ t : SchedState, t.user = s.user → t.sent = s.sent → t.pc.filling = false →
      t.pc.hand = s.pc.hand → t.pc.stepsLeft + 1 = s.pc.stepsLeft →
      Serving plan t ∧ t.stepsLeft + 1 = s.stepsLeft := by
    intro t huser hsent hfill hhand hdown
    refine ⟨⟨hfill, huser ▸ h.pooled, ?_⟩, ?_⟩
    · rw [SchedState.planned, hhand, huser, hsent]
      exact hplan
    · rw [stepsLeft, stepsLeft, huser]
      omega
  cases schedMove_of_step hstep with
  | submit hq => exact Or.inr ⟨⟨hphase, h.pooled, hplan⟩, rfl⟩
  | count hq => exact Or.inr ⟨⟨hphase, h.pooled, hplan⟩, rfl⟩
  | deliver hq => exact Or.inr ⟨⟨hphase, h.pooled, hplan⟩, rfl⟩
  | receive hd => exact Or.inr ⟨⟨hphase, h.pooled, hplan⟩, rfl⟩
  | getNil hpc hget =>
    -- the pool was empty, and the round is over
    obtain ⟨held, hpooled⟩ := h.pooled
    rw [stepsLeft, live_of_getTaskFromPool_none hpooled.inv hget, hpc] at hleft
    exact absurd rfl hleft
  | @get o t hpc hget hpid =>
    obtain ⟨held, hpooled⟩ := h.pooled
    obtain ⟨task, rfl, hlive⟩ := live_getTaskFromPool hpooled.inv hget
    refine Or.inr ⟨⟨rfl, ⟨_, (hpooled.get hget).2.2.2⟩, ?_⟩, ?_⟩
    · rw [← hplan, hlive, hpc, List.map_cons]
      simp [SchedState.planned, Pc.hand]
    · rw [stepsLeft, stepsLeft, hlive, hpc, List.length_cons]
      show 5 * (getTaskFromPool s.user.pool).2.live.length + 4 + 1 =
        5 * ((getTaskFromPool s.user.pool).2.live.length + 1) + 0
      omega
  | getInvalid hpc hget hpid =>
    obtain ⟨held, hpooled⟩ := h.pooled
    exact absurd hpid (hpooled.get hget).1
  | refill hpc hto => rw [hpc] at hphase; exact absurd hphase (by simp [Pc.filling])
  | drained hpc hroom hpid hone => rw [hpc] at hphase; exact absurd hphase (by simp [Pc.filling])
  | drainPanics hpc => exact Or.inl rfl
  | drainEmpty hpc hroom hpid => rw [hpc] at hphase; exact absurd hphase (by simp [Pc.filling])
  | drainFull hpc hroom => rw [hpc] at hphase; exact absurd hphase (by simp [Pc.filling])
  | peek hpc hq => rw [hpc] at hphase; exact absurd hphase (by simp [Pc.filling])
  | resend hpc hq => rw [hpc] at hphase; exact absurd hphase (by simp [Pc.filling])
  | select hs hpid => exact Or.inr (hround _ rfl rfl rfl (by rw [hs]; rfl) (by rw [hs]; rfl))
  | selectPanics hpc => exact Or.inl rfl
  | dispatch hs hsent => exact Or.inr (hround _ rfl rfl rfl (by rw [hs]; rfl) (by rw [hs]; rfl))
  | dispatchFails hs herr => rw [hok _ rfl] at herr; exact absurd herr (by simp)
  | @send o t d hs =>
    refine Or.inr ⟨⟨rfl, h.pooled, ?_⟩, ?_⟩
    · rw [← hplan, hs]
      simp [SchedState.planned, Pc.hand]
    · rw [stepsLeft, stepsLeft, hs]
      rfl
  | notify hs => exact Or.inr (hround _ rfl rfl rfl (by rw [hs]; rfl) (by rw [hs]; rfl))

/-- What has been sent stays sent. -/
theorem sent_prefix_step {size : RingSize} {s s' : SchedState} {l : SchedLabel}
    (hstep : schedStep size s l = some s') : s.sent <+: s'.sent := by
  cases schedMove_of_step hstep with
  | send hs => exact List.prefix_append _ _
  | drainEmpty hpc hroom hpid =>
    rw [afterDrain]
    split_ifs <;> exact List.prefix_refl _
  | drainFull hpc hroom =>
    rw [afterDrain]
    split_ifs <;> exact List.prefix_refl _
  | _ => exact List.prefix_refl _

/-- **A batch is sent in time.**  In every reachable state in which the goroutine is not
refilling its pool, every way on, in which it makes as many as `stepsLeft` steps,
leads to all tasks of the pool being sent in order: five steps for each of them,
however many tasks arrive meanwhile and whenever the other parties run.  The user
ring buffer must work, and nothing be divided by zero. -/
theorem batch_sent_in_time (size : RingSize) (ls ls' : List SchedLabel) (s s' : SchedState)
    (hrun : run (schedStep size) .init ls = some s) (hserve : s.pc.filling = false)
    (hrun' : run (schedStep size) s ls' = some s') (hpc : s'.pc ≠ .panicked)
    (hok : ∀ l ∈ ls', l.RingOk)
    (hsteps : 5 * s.user.pool.live.length + s.pc.stepsLeft ≤ ls'.countP SchedLabel.isGo) :
    s.sent.map Prod.fst ++ s.pc.hand ++ s.user.pool.live.map Task.queuedTask <+:
      s'.sent.map Prod.fst := by
  have hgoal : s'.pc = .panicked ∨ s.planned <+: s'.sent.map Prod.fst := by
    by_cases hpanic : s.pc = .panicked
    · exact Or.inl (invariant (I := fun t => t.pc = .panicked) hpanic
        (fun _ _ _ ht hstep => panicked_step ht hstep) ls' s' (visits_of_run hrun'))
    obtain ⟨done, arrived, served, hbatch⟩ := batched_run hrun hpanic
    refine reaches_of_countdown (P := Serving s.planned)
      (Q := fun t => t.pc = .panicked ∨ s.planned <+: t.sent.map Prod.fst)
      (C := SchedLabel.RingOk) (fun t ht hzero => Or.inr ?_) (fun t l t' hQ hstep => ?_)
      (fun t l t' ht hleft hC hstep => ?_) ⟨hserve, hbatch.pooled, rfl⟩ hok hrun'
      (show s.stepsLeft ≤ ls'.countP SchedLabel.isGo from hsteps)
    · rw [Serving.sent ht hzero]
    · rcases hQ with hQ | hQ
      · exact Or.inl (panicked_step hQ hstep)
      · exact Or.inr (hQ.trans ((sent_prefix_step hstep).map Prod.fst))
    · rcases serving_step ht hleft hC hstep with hpanicked | hnext
      · exact Or.inl (Or.inl hpanicked)
      · exact Or.inr hnext
  exact hgoal.resolve_left hpc

/-- With the first of ten tasks in hand and an eleventh arriving, 47 steps suffice. -/
def nineLeft : List SchedLabel :=
  [.submit 0 (recordCtx 7) zeroPad] ++ List.replicate 47 (.go ⟨some 0, false⟩)

theorem batch_sent_in_time_nine_left :
    ∃ s s', run (schedStep ringSize) .init (tenTasks ⟨some 0, false⟩) = some s ∧
      run (schedStep ringSize) s nineLeft = some s' ∧ s.sent.length = 0 ∧
      10 ≤ s'.sent.length := by
  have hfacts : ((run (schedStep ringSize) .init (tenTasks ⟨some 0, false⟩)).bind fun s =>
      (run (schedStep ringSize) s nineLeft).map fun s' => (s.pc.filling, s.pc.stepsLeft,
        s.user.pool.live.length, s.pc.hand.length, s.sent.length, decide (s'.pc = .panicked))) =
      some (false, 2, 9, 1, 0, false) := by decide +kernel
  obtain ⟨s, hs, h⟩ := Option.bind_eq_some_iff.mp hfacts
  obtain ⟨s', hs', h⟩ := Option.map_eq_some_iff.mp h
  simp only [Prod.mk.injEq, decide_eq_false_iff_not] at h
  obtain ⟨hserve, hleft, hlive, hhand, hsent, hpc⟩ := h
  have hall := batch_sent_in_time ringSize _ nineLeft s s' hs hserve hs' hpc
    (fun l hl o ho => by
      subst ho
      simp only [nineLeft, List.mem_append, List.mem_singleton, List.mem_replicate, reduceCtorEq,
        SchedLabel.go.injEq, false_or] at hl
      rw [hl.2])
    (by rw [hleft, hlive]; decide)
  have hlen := hall.length_le
  rw [List.length_append, List.length_append, List.length_map, List.length_map, List.length_map,
    hsent, hhand, hlive] at hlen
  exact ⟨s, s', hs, hs', hsent, hlen⟩

end ScxGoland
