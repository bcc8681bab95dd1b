/-
When the scheduler gives up.

The kernel ejects a scheduler that calls `scx_bpf_error`.  The callbacks do so for a CPU
number out of range, for scratch masks that are missing, for a scheduler task that is
gone, and for a timer that cannot be started.  A task whose `goland_init_task` failed
never comes to life (`admitStep`).

The kernel ejects a scheduler for errors of its own, too.  An overflow of the dispatch
buffer is counted as an error here.  Left out are a `scx_bpf_dispatch_cancel` with
nothing to cancel, for which the affinity of a priority task must change inside
`dispatch_task` (`stepRacing`), and a task that is inserted twice by one direct dispatch.

* `Whole` — every task context has both of its scratch masks, in every state that
  is reached, and then no search and no enqueue reports an error;
* `errorless_step` — from such a state, no step reports an error unless it is one
  of `Label.givesUp`;
* `never_ejected_iff` — a run never reports an error iff no `goland_dispatch` has
  to wake a scheduler task that is gone, and the heartbeat can always be re-armed.
-/
import ScxGoland.Traces
import ScxGoland.Wakeup

open Runs

namespace ScxGoland

variable {m : Machine}

def Event.isError : Event → Bool
  | .error _ => true
  | _ => false

/-- No error is reported. -/
def Errorless (w w' : World m) : Prop := Emits (fun e => e.isError = false) w w'

namespace Errorless

theorem refl (w : World m) : Errorless w w := Emits.of_log rfl

theorem trans {w₁ w₂ w₃ : World m} (h : Errorless w₁ w₂) (h' : Errorless w₂ w₃) :
    Errorless w₁ w₃ := Emits.trans h h'

theorem of_log {w w' : World m} (h : w'.log = w.log) : Errorless w w' := Emits.of_log h

theorem emit (w : World m) {e : Event} (h : e.isError = false) : Errorless w (w.emit e) :=
  Emits.emit w h

theorem then_log {w₁ w₂ w₃ : World m} (h : Errorless w₁ w₂) (h' : w₃.log = w₂.log) :
    Errorless w₁ w₃ := h.trans (of_log h')

theorem insert_direct (w : World m) (i : Insertion) : Errorless w (w.insert .direct i) :=
  ⟨[_], rfl, by simp [Event.isError]⟩

theorem insert_dispatch {w : World m} (i : Insertion) (hroom : w.buf.length < maxDispatchSlot) :
    Errorless w (w.insert .dispatch i) :=
  ⟨[_], insert_dispatch_log w i hroom, by simp [Event.isError]⟩

theorem pickIdle (w : World m) (env : Env m) (mask : CpuMask m) (idleCore : Bool) :
    Errorless w (w.scxBpfPickIdleCpu env mask idleCore).2 := by
  rcases scxBpfPickIdleCpu_cases env mask idleCore w with ⟨c, -, h⟩ | h
  · rw [h]
    exact ⟨[_], rfl, by simp [Event.isError]⟩
  · rw [h]
    exact refl w

end Errorless

/-! ### The footprints report no error -/

/-- Contexts that keep their shape keep their masks. -/
theorem Whole.of_shape {w w' : World m} (h : Whole w)
    (heq : ∀ pid, (w'.taskCtx pid).map TaskCtx.shape = (w.taskCtx pid).map TaskCtx.shape) :
    Whole w' := by
  intro pid t' ht'
  have hshape := heq pid
  rw [ht', Option.map_some] at hshape
  obtain ⟨t, ht, hsame⟩ := Option.map_eq_some_iff.mp hshape.symm
  obtain ⟨hl2, hl3⟩ := h pid t ht
  have hfour := congrArg (fun r => r.2.2.2) hsame
  exact ⟨(congrArg Prod.fst hfour).symm.trans hl2, (congrArg Prod.snd hfour).symm.trans hl3⟩

theorem Equipped.of_untouched {w w' : World m} (h : Equipped w) (hsame : Untouched w w') :
    Equipped w' := ⟨h.1, h.2.of_shape hsame.taskCtx⟩

/-- With queues for all CPUs and both scratch masks in place, there is nothing for the
selection to complain about. -/
theorem Searching.errorless {w w' : World m} (h : Searching w w') (hw : Equipped w) :
    Errorless w w' := by
  induction h with
  | refl => exact Errorless.refl w
  | tail hpre hlast ih =>
    refine ih.trans ?_
    cases hlast with
    | claim c => exact ⟨[_], rfl, by simp [Event.isError]⟩
    | kick cpu => exact Errorless.emit _ rfl
    | scratch hscratch =>
      obtain ⟨ctx, rfl, -⟩ := hscratch
      exact Errorless.of_log rfl
    | error msg hnot => exact absurd (hw.of_untouched (Searching.untouched hpre)) hnot

theorem Enqueueing.errorless {own : Bool} {p : TaskStruct m} {enqFlags : UInt64} {w w' : World m}
    (h : Enqueueing own p enqFlags w w') (hw : Equipped w) : Errorless w w' := by
  induction h with
  | refl => exact Errorless.refl w
  | tail hpre hlast ih =>
    refine ih.trans ?_
    cases hlast with
    | search hsearch =>
      have hsame := Enqueueing.untouched hpre
      exact (Searching.one hsearch).errorless ⟨hw.1, hw.2.of_shape hsame.taskCtx⟩
    | thread hown => exact Errorless.insert_direct _ _
    | kernel id slice => exact (Errorless.insert_direct _ _).then_log rfl
    | priority c hslice => exact (Errorless.insert_direct _ _).then_log rfl
    | submit => exact ⟨[_], rfl, by simp [Event.isError]⟩
    | congested => exact Errorless.of_log rfl

theorem errorless_kickTaskCpu (env : Env m) (p : TaskStruct m) (cpu : Int32) (w : World m) :
    Errorless w (kickTaskCpu env p cpu w) := by
  rcases kickTaskCpu_cases env p cpu w with ⟨h, -⟩ | ⟨c, -, h⟩
  · rw [h]
    exact Errorless.emit w rfl
  · rw [h]
    exact ⟨[_, _, _], rfl, by simp [Event.isError]⟩

section Dispatch

variable (hm : m.nrCpuIds ≤ maxCpus) (ro : Rodata) (env : Env m) {w : World m}

include hm in
theorem errorless_insertByVtime {p : TaskStruct m} {task : DispatchedTaskCtx}
    (hcpu : bpfCpumaskTestCpu task.cpu p.cpusPtr = true) (hroom : w.buf.length < maxDispatchSlot) :
    Errorless w (insertByVtime p task w) := by
  have hins : Errorless w (insertOnCpu p task w) := by
    obtain ⟨c, -, hc⟩ := exists_cpu_of_test hcpu
    rw [insertOnCpu, hc, cpuToDsq_cpu hm]
    exact (Errorless.insert_dispatch _ hroom).then_log rfl
  rw [insertByVtime_eq]
  split_ifs
  · exact Errorless.refl w
  · exact hins

include hm in
/-- With a slot left and no affinity change in between, a record is handled without
an error. -/
theorem errorless_dispatchTask (task : DispatchedTaskCtx) (hroom : w.buf.length < maxDispatchSlot) :
    Errorless w (dispatchTask env none task w) := by
  rw [dispatchTask]
  rcases w.tasks.find task.pid with _ | p
  · exact Errorless.refl w
  · have hshared := Errorless.insert_dispatch (w := w)
      ⟨p.pid, .user sharedDsq, task.sliceNs, some task.vtime, task.flags⟩ hroom
    dsimp only
    by_cases hany : task.cpu = rlCpuAny
    · rw [if_pos hany]
      exact hshared.trans (errorless_kickTaskCpu _ _ _ _)
    rw [if_neg hany]
    by_cases hcpu : bpfCpumaskTestCpu task.cpu p.cpusPtr = false
    · rw [if_pos hcpu]
      refine Errorless.trans ?_ (errorless_kickTaskCpu _ _ _ _)
      exact hshared.then_log rfl
    rw [if_neg hcpu, Option.getD_none, if_neg hcpu]
    have hmap := (errorless_insertByVtime hm (by simpa using hcpu) hroom).then_log
      (updatePriorityTaskMap_log (insertByVtime p task w) task.pid.toUInt32 task.vtime task.sliceNs)
    exact hmap.trans (Errorless.emit _ rfl)

theorem errorless_takeWakeup (hbuf : w.buf = [])
    (hlive : w.userschedNeeded = true → (w.tasks.find ro.userschedPid.toInt32).isSome) :
    Errorless w (takeWakeup ro w) := by
  rw [takeWakeup]
  split_ifs with hflag
  · obtain ⟨p, hp⟩ := Option.isSome_iff_exists.mp (hlive hflag)
    rw [dispatchUserScheduler, hp]
    exact ⟨[_], insert_dispatch_log _ _ (by rw [hbuf]; decide), by simp [Event.isError]⟩
  · exact Errorless.refl w

include hm in
theorem errorless_consume (cpu : Cpu m) (prev : Option Int32) (w : World m) :
    Errorless w (consume ro env cpu prev w) := by
  have hmove : ∀ (w : World m) (dsq : UInt64),
      Errorless w (w.scxBpfDsqMoveToLocal env cpu.toS32 dsq).2 :=
    fun w dsq => ⟨[_], rfl, by simp [Event.isError]⟩
  have hown := hmove w (UInt64.ofNat cpu.val)
  have hshared := hown.trans (hmove _ sharedDsq)
  have hsched := hshared.trans (hmove _ schedDsq)
  have hcases := consume_cases ro env cpu prev w
  rw [cpuToDsq_cpu hm] at hcases
  rcases hcases with ⟨-, heq⟩ | ⟨-, -, heq⟩ | ⟨-, -, -, heq⟩ | ⟨-, -, -, heq⟩
  · exact heq ▸ hown
  · exact heq ▸ hshared
  · exact heq ▸ hsched
  · rw [heq]
    refine hsched.trans ?_
    rw [keepRunning]
    split_ifs
    · exact ⟨[_], rfl, by simp [Event.isError]⟩
    · split
      · exact Errorless.refl _
      · split_ifs
        · exact Errorless.of_log rfl
        · exact Errorless.refl _

include hm in
theorem errorless_golandDispatch (cpu : Cpu m) (prev : Option Int32) (hbuf : w.buf = [])
    (hlive : w.userschedNeeded = true → (w.tasks.find ro.userschedPid.toInt32).isSome) :
    Errorless w (golandDispatch ro env (fun _ => none) cpu prev w) := by
  have hdrain : Errorless _ (drainDispatched env (fun _ => none) (takeWakeup ro w)) :=
    drainDispatched_rule (takeWakeup_buf ro hbuf) (Errorless.refl _)
      (fun _ task hroom => errorless_dispatchTask hm env task hroom) (fun _ _ h => h.then_log rfl)
  rw [golandDispatch_eq]
  exact ((errorless_takeWakeup ro hbuf hlive).trans hdrain).trans
    (errorless_consume hm ro env cpu prev _)

end Dispatch

/-! ### Steps of the system -/

theorem Whole.of_taskCtx {w w' : World m} (h : Whole w) (heq : w'.taskCtx = w.taskCtx) :
    Whole w' := by
  intro pid t ht
  rw [heq] at ht
  exact h pid t ht

theorem Whole.updTaskCtx {w : World m} (h : Whole w) (pid : Int32) {f : TaskCtx m → TaskCtx m}
    (hf : ∀ t, (f t).l2Cpumask = t.l2Cpumask ∧ (f t).l3Cpumask = t.l3Cpumask) :
    Whole (w.updTaskCtx pid f) := by
  intro q t' ht'
  dsimp only [World.updTaskCtx] at ht'
  by_cases hq : q = pid
  · subst hq
    rw [Function.update_self] at ht'
    obtain ⟨t, ht, rfl⟩ := Option.map_eq_some_iff.mp ht'
    rw [(hf t).1, (hf t).2]
    exact h q t ht
  · rw [Function.update_of_ne hq] at ht'
    exact h q t' ht'

/-- A `goland_init_task` that succeeds has created both masks. -/
theorem Whole.initTask {w : World m} (h : Whole w) {allocs : Allocs} {p : TaskStruct m}
    (hok : (golandInitTask allocs p w).1 = 0) : Whole (golandInitTask allocs p w).2 := by
  rw [golandInitTask] at hok ⊢
  generalize (w.taskCtx p.pid <|> if allocs.storage then some ⟨none, none, 0, 0, 0⟩ else none) =
    ctx at hok ⊢
  rcases ctx with _ | tctx
  · exact absurd (show -eNOMEM = 0 from hok) (by decide)
  · dsimp only at hok ⊢
    split_ifs at hok ⊢
    · exact absurd (show -eNOMEM = 0 from hok) (by decide)
    · exact absurd (show -eNOMEM = 0 from hok) (by decide)
    · intro q t ht
      dsimp only at ht
      by_cases hq : q = p.pid
      · subst hq
        rw [Function.update_self, Option.some_inj] at ht
        exact ht ▸ ⟨rfl, rfl⟩
      · rw [Function.update_of_ne hq] at ht
        exact h q t ht

/-- The kernel lets a task in only if `goland_init_task` returns `0`. -/
def admits (w : World m) : Label m → Bool
  | .initTask allocs pid => (w.tasks.find pid).all fun p => (golandInitTask allocs p w).1 = 0
  | _ => true

def admitStep (ro : Rodata) (w : World m) (l : Label m) : Option (World m) :=
  if admits w l then step ro w l else none

theorem admitStep_eq_some {ro : Rodata} {w w' : World m} {l : Label m}
    (h : admitStep ro w l = some w') : admits w l = true ∧ step ro w l = some w' := by
  rw [admitStep] at h
  split_ifs at h with hadm
  exact ⟨hadm, h⟩

theorem whole_step {ro : Rodata} {w w' : World m} {l : Label m} (hw : Whole w)
    (h : admitStep ro w l = some w') : Whole w' := by
  obtain ⟨hadm, h⟩ := admitStep_eq_some h
  by_cases hl : l.isScheduling = true
  · obtain ⟨queued, needed, hsame, -⟩ := step_untouched hl h
    exact hw.of_shape hsame.taskCtx
  cases l with
  | fork p =>
    rw [step] at h
    split_ifs at h
    obtain rfl := Option.some_inj.mp h
    exact hw.of_taskCtx rfl
  | change p =>
    obtain ⟨old, -, rfl⟩ := Option.map_eq_some_iff.mp h
    exact hw.of_taskCtx rfl
  | setAffinity pid mask =>
    obtain ⟨p, -, rfl⟩ := Option.map_eq_some_iff.mp h
    exact hw.of_taskCtx rfl
  | runnable pid =>
    obtain ⟨p, -, rfl⟩ := Option.map_eq_some_iff.mp h
    rw [golandRunnable]
    split_ifs
    · exact hw
    · exact hw.updTaskCtx p.pid fun _ => ⟨rfl, rfl⟩
  | running env pid =>
    obtain ⟨p, -, rfl⟩ := Option.map_eq_some_iff.mp h
    rw [golandRunning]
    split_ifs
    · exact hw.of_taskCtx rfl
    · exact Whole.updTaskCtx (hw.of_taskCtx rfl) p.pid fun _ => ⟨rfl, rfl⟩
  | stopping env pid =>
    obtain ⟨p, -, rfl⟩ := Option.map_eq_some_iff.mp h
    rw [golandStopping]
    split_ifs
    · exact hw
    · exact Whole.updTaskCtx (hw.of_taskCtx rfl) p.pid fun _ => ⟨rfl, rfl⟩
  | enable pid =>
    obtain ⟨p, -, rfl⟩ := Option.map_eq_some_iff.mp h
    exact hw.of_taskCtx rfl
  | initTask allocs pid =>
    obtain ⟨p, hp, rfl⟩ := Option.map_eq_some_iff.mp h
    rw [admits, hp] at hadm
    exact hw.initTask (of_decide_eq_true hadm)
  | exitTask pid =>
    obtain ⟨p, -, rfl⟩ := Option.map_eq_some_iff.mp h
    intro q t ht
    by_cases hq : q = pid
    · subst hq
      exact absurd ht (by simp [World.emit])
    · exact hw q t (by simpa [World.emit, hq] using ht)
  | siblingCpu alloc lvlId cpuId siblingCpuId =>
    obtain rfl := Option.some_inj.mp h
    refine hw.of_taskCtx ?_
    rw [enableSiblingCpu]
    dsimp only
    split_ifs
    · split <;> rfl
    · split <;> rfl
    · rfl
    · rfl
  | setCounters b =>
    obtain rfl := Option.some_inj.mp h
    exact hw.of_taskCtx rfl
  | setDsqs dsqs =>
    obtain rfl := Option.some_inj.mp h
    exact hw.of_taskCtx rfl
  | _ => exact absurd rfl hl

/-- The steps on which the scheduler gives up: a wake-up without a scheduler task, and
a heartbeat that cannot be re-armed. -/
def Label.givesUp (ro : Rodata) (w : World m) : Label m → Bool
  | .dispatch _ _ _ => w.userschedNeeded && (w.tasks.find ro.userschedPid.toInt32).isNone
  | .timer _ armed => !armed
  | _ => false

theorem errorless_timer (ro : Rodata) (env : Env m) (w : World m) :
    Errorless w (userschedTimerFn ro env true w) := by
  rw [userschedTimerFn, if_pos rfl]
  split_ifs
  · rw [triggerUsersched]
    split
    · exact Errorless.refl w
    · rename_i p _
      have hpick := Errorless.pickIdle ({ w with userschedNeeded := true } : World m) env p.cpusPtr
        false
      dsimp only
      split_ifs
      · exact hpick
      · exact hpick.trans (Errorless.emit _ rfl)
  · exact Errorless.refl w

/-- **No step reports an error** but those of `Label.givesUp`. -/
theorem errorless_step (hm : m.nrCpuIds ≤ maxCpus) {ro : Rodata} {w w' : World m} {l : Label m}
    (hbuf : w.buf = []) (hw : Whole w) (hl : l.givesUp ro w = false)
    (h : step ro w l = some w') : Errorless w w' := by
  cases l with
  | fork p =>
    rw [step] at h
    split_ifs at h
    obtain rfl := Option.some_inj.mp h
    exact Errorless.of_log rfl
  | change p =>
    obtain ⟨old, -, rfl⟩ := Option.map_eq_some_iff.mp h
    exact Errorless.of_log rfl
  | setAffinity pid mask =>
    obtain ⟨p, -, rfl⟩ := Option.map_eq_some_iff.mp h
    exact ⟨[_], rfl, by simp [Event.isError]⟩
  | dequeue pid =>
    obtain ⟨p, -, rfl⟩ := Option.map_eq_some_iff.mp h
    exact Errorless.emit w rfl
  | selectCpu env pid prevCpu wakeFlags =>
    obtain ⟨p, -, rfl⟩ := Option.map_eq_some_iff.mp h
    exact (enqueueing_golandSelectCpu ro env p prevCpu wakeFlags w).errorless ⟨hm, hw⟩
  | enqueue env pid enqFlags =>
    obtain ⟨p, -, rfl⟩ := Option.map_eq_some_iff.mp h
    have hcalled : Errorless w (w.emit (.enqueueCalled pid)) := Errorless.emit w rfl
    have hequip : Equipped (w.emit (.enqueueCalled pid)) := ⟨hm, hw⟩
    exact (hcalled.trans ((enqueueing_golandEnqueue ro env p enqFlags _).errorless hequip)).trans
      (Errorless.emit _ rfl)
  | runnable pid =>
    obtain ⟨p, -, rfl⟩ := Option.map_eq_some_iff.mp h
    rw [golandRunnable]
    split_ifs <;> exact Errorless.of_log rfl
  | running env pid =>
    obtain ⟨p, -, rfl⟩ := Option.map_eq_some_iff.mp h
    rw [golandRunning]
    split_ifs <;> exact Errorless.of_log rfl
  | stopping env pid =>
    obtain ⟨p, -, rfl⟩ := Option.map_eq_some_iff.mp h
    rw [golandStopping]
    split_ifs <;> exact Errorless.of_log rfl
  | cpuRelease pid =>
    obtain ⟨p, -, rfl⟩ := Option.map_eq_some_iff.mp h
    rw [golandCpuRelease]
    split_ifs <;> exact Errorless.of_log rfl
  | enable pid =>
    obtain ⟨p, -, rfl⟩ := Option.map_eq_some_iff.mp h
    exact Errorless.of_log rfl
  | initTask allocs pid =>
    obtain ⟨p, -, rfl⟩ := Option.map_eq_some_iff.mp h
    rw [golandInitTask]
    split
    · exact Errorless.refl w
    · dsimp only
      split_ifs <;> exact Errorless.of_log rfl
  | exitTask pid =>
    obtain ⟨p, -, rfl⟩ := Option.map_eq_some_iff.mp h
    refine Errorless.trans (Errorless.of_log ?_) (Errorless.emit _ rfl)
    exact updatePriorityTaskMap_log w p.pid.toUInt32 1 0
  | dispatch env cpu prev =>
    obtain rfl := Option.some_inj.mp h
    refine errorless_golandDispatch hm ro env cpu prev hbuf fun hneeded => ?_
    rw [Label.givesUp, hneeded, Bool.true_and, Option.isNone_eq_false_iff] at hl
    exact hl
  | timer env armed =>
    obtain rfl := Option.some_inj.mp h
    rw [Label.givesUp, Bool.not_eq_false'] at hl
    rw [hl]
    exact errorless_timer ro env w
  | preempt cpuId =>
    obtain rfl := Option.some_inj.mp h
    exact Errorless.emit w rfl
  | rsSelectCpu env pid cpu =>
    obtain rfl := Option.some_inj.mp h
    rw [rsSelectCpu]
    split
    · exact Errorless.refl w
    · exact (Searching.pickIdleCpu ro env _ cpu w).errorless ⟨hm, hw⟩
  | siblingCpu alloc lvlId cpuId siblingCpuId =>
    obtain rfl := Option.some_inj.mp h
    rw [enableSiblingCpu]
    dsimp only
    split_ifs
    · split <;> exact Errorless.of_log rfl
    · split <;> exact Errorless.of_log rfl
    · exact Errorless.refl w
    · exact Errorless.refl w
  | _ =>
    obtain rfl := Option.some_inj.mp h
    exact Errorless.of_log rfl

/-- Giving up leaves an error in the log. -/
theorem error_of_givesUp {ro : Rodata} {w w' : World m} {l : Label m} (hbuf : w.buf = [])
    (hl : l.givesUp ro w = true) (h : step ro w l = some w') : ∃ msg, .error msg ∈ w'.log := by
  cases l with
  | dispatch env cpu prev =>
    obtain rfl := Option.some_inj.mp h
    rw [Label.givesUp, Bool.and_eq_true, Option.isNone_iff_eq_none] at hl
    obtain ⟨msg, hmsg⟩ : ∃ msg, (takeWakeup ro w).log = .error msg :: w.log := by
      rw [takeWakeup, if_pos hl.1, dispatchUserScheduler, hl.2]
      exact ⟨_, rfl⟩
    obtain ⟨is, hdrain, -⟩ := performs_drainDispatched env (fun _ => none) (takeWakeup_buf ro hbuf)
    obtain ⟨es, hes, -⟩ := hdrain.then_nil (idles_consume ro env cpu prev _).performs
    refine ⟨msg, ?_⟩
    rw [golandDispatch_eq, beforeConsuming, hes, hmsg]
    exact List.mem_append_right _ List.mem_cons_self
  | timer env armed =>
    obtain rfl := Option.some_inj.mp h
    rw [Label.givesUp, Bool.not_eq_true'] at hl
    rw [userschedTimerFn, hl]
    exact ⟨_, List.mem_cons_self⟩
  | _ => exact absurd hl (by simp [Label.givesUp])

/-- **The callbacks report no error**, in any run in which affinities change between them
only, for any tasks, records and failed allocations, exactly if every `goland_dispatch`
that has to wake the scheduler finds its task alive, and the timer can be re-armed
whenever it fires. -/
theorem never_ejected_iff (ro : Rodata) (w₀ : World m) (hstart : Started w₀)
    (ls : List (Label m)) :
    (∀ w, Visits (admitStep ro) w₀ ls w → ∀ msg, .error msg ∉ w.log) ↔
      ∀ w l, Takes (admitStep ro) w₀ ls w l → l.givesUp ro w = false := by
  refine visits_iff_takes
    (I := fun w : World m => w.buf = [] ∧ Whole w ∧ ∀ e ∈ w.log, e.isError = false)
    ⟨hstart.atLoad.buf, fun pid t ht => ?_, by simp [hstart.atLoad.log]⟩ ?_ ?_ ?_
  · rw [hstart.atLoad.taskCtx pid] at ht
    exact absurd ht (by simp)
  · rintro w ⟨-, -, hlog⟩ msg hmem
    exact absurd (hlog _ hmem) (by simp [Event.isError])
  · rintro w l w' ⟨hbuf, hwhole, hlog⟩ hC hstep
    have hsys := (admitStep_eq_some hstep).2
    obtain ⟨es, hes, hnone⟩ := errorless_step hstart.nrCpuIds_le hbuf hwhole hC hsys
    refine ⟨(step_keeps (q := 0) hbuf hsys).1, whole_step hwhole hstep, ?_⟩
    rw [hes]
    exact List.forall_mem_append.mpr ⟨hnone, hlog⟩
  · rintro w l w' ⟨hbuf, -, -⟩ hC hstep hP
    obtain ⟨msg, hmsg⟩ := error_of_givesUp hbuf (by simpa using hC) (admitStep_eq_some hstep).2
    exact hP msg hmsg

/-- The heartbeat wakes the scheduler, whose task is alive. -/
theorem never_ejected_iff_heartbeat :
    let ls : List (Label twoCpus) := heartbeatRun ++ [.dispatch (Env.lowest cpu1) cpu1 none]
    (∃ w, run (admitStep plainRodata) onlyUsersched ls = some w) ∧
    ∀ w, Visits (admitStep plainRodata) onlyUsersched ls w → ∀ msg, .error msg ∉ w.log := by
  intro ls
  refine ⟨⟨_, rfl⟩,
    (never_ejected_iff plainRodata onlyUsersched (started_startedWorld _) ls).mpr ?_⟩
  have hcheck : check (admitStep plainRodata) (fun w l => !l.givesUp plainRodata w)
      onlyUsersched ls = true := by decide
  intro w l htake
  simpa using guard_of_check hcheck w l htake

end ScxGoland
