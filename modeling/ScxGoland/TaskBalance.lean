/-
No task is lost in the user-space loop.

A task passes from the queue into the pool, from there into a local variable of
the goroutine and then to `s.dispatch`.  `Balanced` counts the tasks in all of
these places.

* `no_task_lost_iff` — at every loop head the tasks taken from the queue are
  those in the pool and those sent, in exactly the runs in which no
  `DispatchTask` fails: the task of a failed one is dropped.
-/
import ScxGoland.SchedLoop

open Runs

namespace ScxGoland

/-- The task in the goroutine's local variable, taken from the pool and not yet
sent. -/
def Pc.hand : Pc → List QueuedTask
  | .select t | .dispatch t _ | .send t _ => [t]
  | _ => []

/-- How often a task occurs in a list, whatever its vtime. -/
def tally (ts : List QueuedTask) (a : QueuedTask) : ℕ := (ts.map QueuedTask.unstamped).count a

@[simp] theorem tally_append (ts us : List QueuedTask) (a : QueuedTask) :
    tally (ts ++ us) a = tally ts a + tally us a := by
  rw [tally, List.map_append, List.count_append]
  rfl

theorem tally_congr {t u : QueuedTask} (h : t.unstamped = u.unstamped) (a : QueuedTask) :
    tally [t] a = tally [u] a := by
  rw [tally, tally, List.map_singleton, List.map_singleton, h]

/-- Taking a task out of the list of those held. -/
theorem tally_erase {held : List Task} {t : Task} (ht : t ∈ held) (a : QueuedTask) :
    tally (held.map Task.queuedTask) a =
      tally ((held.erase t).map Task.queuedTask) a + tally [t.queuedTask] a := by
  have hperm := ((List.perm_cons_erase ht).map Task.queuedTask).map QueuedTask.unstamped
  rw [tally, hperm.count_eq, List.map_cons, ← List.singleton_append, List.map_append,
    List.count_append, add_comm]
  rfl

/-- The tasks taken from the queue are those in the pool and those sent, each as
often as it was taken, and the record sent for a task has the task's pid. -/
def SchedState.Conserved (s : SchedState) : Prop :=
  (s.taken.map QueuedTask.unstamped).Perm
    ((s.user.pool.live.map Task.queuedTask ++ s.sent.map Prod.fst).map QueuedTask.unstamped) ∧
  ∀ x ∈ s.sent, x.2.pid = x.1.pid

/-- The step is not a `DispatchTask` that fails. -/
def DispatchSucceeds (s : SchedState) (l : SchedLabel) : Prop :=
  ∀ o t d, l = .go o → s.pc = .dispatch t d → o.urbError = false

/-- The balance of tasks, with the one in the goroutine's hand. -/
structure Balanced (s : SchedState) (held : List Task) : Prop where
  pooled : Pooled s.user.pool held
  balance : s.pc ≠ .panicked → ∀ a, tally s.taken a =
    tally (held.map Task.queuedTask) a + tally (s.sent.map Prod.fst) a + tally s.pc.hand a
  own : ∀ x ∈ s.sent, x.2.pid = x.1.pid
  ownNext : ∀ t d, s.pc = .dispatch t d ∨ s.pc = .send t d → d.pid = t.pid

theorem balanced_init : Balanced .init [] :=
  ⟨⟨PoolInv.empty, by simp⟩, fun _ _ => rfl, by simp [SchedState.init],
    by simp [SchedState.init]⟩

/-- A step that changes neither the tasks nor the program counter. -/
theorem Balanced.of_eq {s s' : SchedState} {held : List Task} (h : Balanced s held)
    (huser : s'.user = s.user) (hpc : s'.pc = s.pc) (htaken : s'.taken = s.taken)
    (hsent : s'.sent = s.sent) : Balanced s' held := by
  refine ⟨huser ▸ h.pooled, ?_, hsent ▸ h.own, hpc ▸ h.ownNext⟩
  rw [htaken, hsent, hpc]
  exact h.balance

/-- A step that moves the program counter only, with the hand as it was. -/
theorem Balanced.of_pc {s s' : SchedState} {held : List Task} (h : Balanced s held)
    (hfrom : s.pc ≠ .panicked) (huser : s'.user = s.user) (htaken : s'.taken = s.taken)
    (hsent : s'.sent = s.sent) (hhand : s'.pc.hand = s.pc.hand)
    (hown : ∀ t d, s'.pc = .dispatch t d ∨ s'.pc = .send t d → d.pid = t.pid) :
    Balanced s' held := by
  refine ⟨huser ▸ h.pooled, fun _ a => ?_, hsent ▸ h.own, hown⟩
  rw [htaken, hsent, hhand]
  exact h.balance hfrom a

/-- After a panic nothing is promised about the tasks. -/
theorem Balanced.of_panic {s s' : SchedState} {held : List Task} (h : Balanced s held)
    (huser : s'.user = s.user) (hpc : s'.pc = .panicked) (hsent : s'.sent = s.sent) :
    Balanced s' held := by
  refine ⟨huser ▸ h.pooled, fun hp => absurd hpc hp, hsent ▸ h.own, ?_⟩
  intro t d hd
  rw [hpc] at hd
  exact absurd hd (by simp)

theorem balanced_step {size : RingSize} {s s' : SchedState} {l : SchedLabel} {held : List Task}
    (h : Balanced s held) (hC : DispatchSucceeds s l) (hmove : SchedMove size s l s') :
    ∃ held', Balanced s' held' := by
  cases hmove with
  | submit hq => exact ⟨held, h.of_eq rfl rfl rfl rfl⟩
  | count hq => exact ⟨held, h.of_eq rfl rfl rfl rfl⟩
  | deliver hq => exact ⟨held, h.of_eq rfl rfl rfl rfl⟩
  | receive hd => exact ⟨held, h.of_eq rfl rfl rfl rfl⟩
  | getNil hpc hget =>
    exact ⟨held, h.of_pc (by simp [hpc]) rfl rfl rfl (by rw [hpc]; rfl) (by simp)⟩
  | @get _ t hpc hget hpid =>
    -- the task moves from the pool into the hand
    obtain ⟨-, hmem, ht, hpooled⟩ := h.pooled.get hget
    refine ⟨_, hpooled, fun _ a => ?_, h.own, by simp⟩
    have hbal := h.balance (by simp [hpc]) a
    rw [tally_erase hmem a, ← ht, hpc] at hbal
    show tally s.taken a = _ + tally (s.sent.map Prod.fst) a + tally [t] a
    have hnil : tally Pc.head.hand a = 0 := rfl
    omega
  | getInvalid hpc hget hpid =>
    -- no such task is in the pool
    exact absurd hpid (h.pooled.get hget).1
  | refill hpc hto =>
    refine ⟨held, h.of_pc (by simp [hpc]) rfl rfl rfl ?_ ?_⟩
    · rw [hpc]
      rcases hto with rfl | rfl <;> rfl
    · rcases hto with rfl | rfl <;> simp
  | @drained _ count task ok user hpc hroom hpid hone =>
    -- the task moves from the queue into the pool
    obtain ⟨hsame, hpooled⟩ := h.pooled.drainOne hroom hpid hone
    refine ⟨held ++ [task], hpooled, fun _ a => ?_, h.own, by simp⟩
    have hbal := h.balance (by simp [hpc]) a
    rw [hpc] at hbal
    show tally (s.taken ++ [(dequeueTask s.q).1]) a =
      tally ((held ++ [task]).map Task.queuedTask) a + tally (s.sent.map Prod.fst) a + 0
    have hnil : tally (Pc.drain count).hand a = 0 := rfl
    rw [List.map_append, tally_append, tally_append, List.map_singleton, tally_congr hsame a]
    omega
  | drainPanics hpc => exact ⟨held, h.of_panic rfl rfl rfl⟩
  | drainEmpty hpc hroom hpid =>
    refine ⟨held, ?_⟩
    rw [afterDrain]
    split_ifs
    · exact h.of_pc (by simp [hpc]) rfl rfl rfl (by rw [hpc]; rfl) (by simp)
    · exact h.of_pc (by simp [hpc]) rfl rfl rfl (by rw [hpc]; rfl) (by simp)
  | drainFull hpc hroom =>
    exact ⟨held, h.of_pc (by simp [hpc]) rfl rfl rfl (by rw [hpc]; rfl) (by simp [afterDrain])⟩
  | peek hpc hq => exact ⟨held, h.of_eq rfl rfl rfl rfl⟩
  | resend hpc hq =>
    exact ⟨held, h.of_pc (by simp [hpc]) rfl rfl rfl (by rw [hpc]; rfl) (by simp)⟩
  | select hpc hpid =>
    refine ⟨held, h.of_pc (by simp [hpc]) rfl rfl rfl (by rw [hpc]; rfl) ?_⟩
    rintro t' d' (heq | heq)
    · obtain ⟨rfl, rfl⟩ := Pc.dispatch.inj heq
      exact hpid
    · exact absurd heq (by simp)
  | selectPanics hpc => exact ⟨held, h.of_panic rfl rfl rfl⟩
  | @dispatch _ t d hpc hok =>
    refine ⟨held, h.of_pc (by simp [hpc]) rfl rfl rfl (by rw [hpc]; rfl) ?_⟩
    rintro t' d' (heq | heq)
    · exact absurd heq (by simp)
    · obtain ⟨rfl, rfl⟩ := Pc.send.inj heq
      exact h.ownNext t d (Or.inl hpc)
  | dispatchFails hpc herr =>
    rw [hC _ _ _ rfl hpc] at herr
    exact absurd herr (by simp)
  | @send _ t d hpc =>
    -- the task moves from the hand into the history of those sent
    refine ⟨held, h.pooled, fun _ a => ?_, fun x hx => ?_, by simp⟩
    · have hbal := h.balance (by simp [hpc]) a
      rw [hpc] at hbal
      show tally s.taken a = tally (held.map Task.queuedTask) a +
        tally ((s.sent ++ [(t, d)]).map Prod.fst) a + 0
      rw [List.map_append, tally_append]
      have hhand : tally (Pc.send t d).hand a = tally ([(t, d)].map Prod.fst) a := rfl
      omega
    · rcases List.mem_append.mp hx with hx | hx
      · exact h.own x hx
      · rw [List.mem_singleton.mp hx]
        exact h.ownNext t d (Or.inr hpc)
  | notify hpc =>
    exact ⟨held, h.of_pc (by simp [hpc]) rfl rfl rfl (by rw [hpc]; rfl) (by simp)⟩

/-- At a loop head the hand is empty, and the balance is the conservation of
tasks. -/
theorem Balanced.conserved {s : SchedState} {held : List Task} (h : Balanced s held)
    (hpc : s.pc = .head) : s.Conserved := by
  refine ⟨List.perm_iff_count.mpr fun a => ?_, h.own⟩
  have hlive : tally (s.user.pool.live.map Task.queuedTask) a =
      tally (held.map Task.queuedTask) a :=
    ((h.pooled.inv.sorted.perm.map Task.queuedTask).map QueuedTask.unstamped).count_eq a
  have hbal := h.balance (by simp [hpc]) a
  rw [hpc] at hbal
  have hnil : tally Pc.head.hand a = 0 := rfl
  show tally s.taken a = tally (s.user.pool.live.map Task.queuedTask ++ s.sent.map Prod.fst) a
  rw [tally_append]
  omega

theorem dispatchFails_loses {size : RingSize} {s s' : SchedState} {l : SchedLabel}
    {held : List Task} (h : Balanced s held) (hC : ¬ DispatchSucceeds s l)
    (hstep : schedStep size s l = some s') : s'.pc = .head ∧ ¬ s'.Conserved := by
  simp only [DispatchSucceeds, not_forall] at hC
  obtain ⟨o, t, d, rfl, hpc, herr⟩ := hC
  have hs' : s' = { s with pc := .head } := by
    simp only [schedStep, goStep, hpc] at hstep
    rw [if_pos (by simpa using herr), Option.some_inj] at hstep
    exact hstep.symm
  rw [hs']
  refine ⟨rfl, fun hcons => ?_⟩
  -- one task more was taken than is in the pool and was sent
  have hlive : tally (s.user.pool.live.map Task.queuedTask) t.unstamped =
      tally (held.map Task.queuedTask) t.unstamped :=
    ((h.pooled.inv.sorted.perm.map Task.queuedTask).map QueuedTask.unstamped).count_eq _
  have hbal := h.balance (by simp [hpc]) t.unstamped
  have hsum : tally s.taken t.unstamped =
      tally (s.user.pool.live.map Task.queuedTask ++ s.sent.map Prod.fst) t.unstamped :=
    hcons.1.count_eq t.unstamped
  have hhand : tally (Pc.dispatch t d).hand t.unstamped = 1 := by
    show [t.unstamped].count t.unstamped = 1
    rw [List.count_singleton_self]
  rw [tally_append] at hsum
  rw [hpc] at hbal
  omega

/-- **No task is lost in exactly the runs without a failed dispatch.**  At every
loop head each task taken from the queue is in the pool or has been sent, as
often as it was taken, with its own pid; whatever `SelectCPU` returns and in
whatever order records arrive. -/
theorem no_task_lost_iff (size : RingSize) (ls : List SchedLabel) :
    (∀ s, Visits (schedStep size) .init ls s → s.pc = .head → s.Conserved) ↔
      ∀ s l, Takes (schedStep size) .init ls s l → DispatchSucceeds s l := by
  refine visits_iff_takes (I := fun s => ∃ held, Balanced s held) ⟨[], balanced_init⟩ ?_ ?_ ?_
  · rintro s ⟨held, h⟩ hpc
    exact h.conserved hpc
  · rintro s l s' ⟨held, h⟩ hC hstep
    exact balanced_step h hC (schedMove_of_step hstep)
  · rintro s l s' ⟨held, h⟩ hC hstep hP
    obtain ⟨hpc, hnot⟩ := dispatchFails_loses h hC hstep
    exact hnot (hP hpc)

/-- The steps with which ten tasks arrive and are drained into the pool, and the
first one is taken to be dispatched. -/
def tenTasks (last : Outcome) : List SchedLabel :=
  (List.range 10).flatMap (fun _ => [.submit 0 (recordCtx 7) zeroPad, .count 0, .deliver]) ++
    List.replicate 16 (.go ⟨some 0, false⟩) ++ [.go last]

/-- The user ring buffer reports an error when the first of ten tasks is
dispatched: the task is in neither place at the next loop head. -/
theorem dispatch_error_loses_task :
    ∃ s, run (schedStep ringSize) .init (tenTasks ⟨some 0, true⟩) = some s ∧
      s.pc = .head ∧ s.taken.length = 10 ∧ s.user.pool.live.length = 9 ∧ s.sent = [] ∧
      ¬ s.Conserved := by
  have hfacts : (run (schedStep ringSize) .init (tenTasks ⟨some 0, true⟩)).map
      (fun s => (s.pc, s.taken.length, s.user.pool.live.length, s.sent)) =
        some (.head, 10, 9, []) := by decide +kernel
  obtain ⟨s, hs, heq⟩ := Option.map_eq_some_iff.mp hfacts
  simp only [Prod.mk.injEq] at heq
  obtain ⟨hpc, htaken, hlive, hsent⟩ := heq
  refine ⟨s, hs, hpc, htaken, hlive, hsent, fun hcons => ?_⟩
  have hlen := hcons.1.length_eq
  simp only [List.length_map, List.length_append, htaken, hlive, hsent] at hlen
  exact absurd hlen (by decide)

end ScxGoland
