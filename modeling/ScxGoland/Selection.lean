/-
The CPU that a task is pinned to.

`main` asks `SelectCPU` for the CPU of each task that it takes from its pool, and
puts what it gets into the record.  `Selecting` runs the goroutine against the
world in which `rs_select_cpu` looks for an idle CPU, and remembers what
`pick_idle_cpu` returned for each task.

* `pinned_iff_ran` — in every run, the record of a task names the CPU that was
  picked for it, and `RL_CPU_ANY` if none was, exactly as long as the program is
  there and can be run: `SelectCPU` returns CPU 0 with its errors, and `main` only
  logs these.
-/
import ScxGoland.Insertions
import ScxGoland.Messages
import ScxGoland.Policy

open CLayout Runs

namespace ScxGoland

variable {m : Machine}

/-! ### The code -/

/-- What becomes of the program run of `SelectCPU`. -/
inductive SelectRun where
  -- `s.selectCpu` is nil
  | missing
  -- `Run` returns an error
  | failed
  | ran
deriving DecidableEq

/-- `rs_select_cpu`, on the bytes that it is run with. -/
def rsSelectCpuOn (ro : Rodata) (env : Env m) (ctxIn : Bytes) (w : World m) : Int32 × World m :=
  rsSelectCpu ro env (getS32 0 ctxIn) (getS32 4 ctxIn) w

/-- The `RetVal` that `SelectCPU` gets, unless it returns an error. -/
def SelectRun.retVal (run : SelectRun) (ro : Rodata) (env : Env m) (t : QueuedTask) (w : World m) :
    Option UInt32 × World m :=
  match run with
  | .missing | .failed => (none, w)
  | .ran =>
    let r := rsSelectCpuOn ro env (selectCPUArg t) w
    (some r.1.toUInt32, r.2)

/-- The CPU that `pick_idle_cpu` returned for the task in this run, if it
returned one. -/
def SelectRun.picked (run : SelectRun) (ro : Rodata) (env : Env m) (t : QueuedTask) (w : World m) :
    Option Int32 :=
  match run with
  | .missing | .failed => none
  | .ran => (w.tasks.find t.pid).bind fun p =>
    let cpu := (pickIdleCpu ro env p t.cpu w).1
    if 0 ≤ cpu then some cpu else none

/-- A task from the pool, the CPU picked for it, and the record made for it. -/
structure Selection where
  task : QueuedTask
  picked : Option Int32
  record : DispatchedTask

/-- The two halves, and all selections so far. -/
structure Selecting (m : Machine) (rd : Reader) extends Coupled m rd where
  selections : List Selection

def Selecting.init (rd : Reader) (w : World m) : Selecting m rd := ⟨.init rd w, []⟩

inductive SelectLabel (m : Machine) where
  -- the goroutine calls `SelectCPU` for the task in its hands
  | select (env : Env m) (run : SelectRun)
  | other (l : CoupledLabel m)

/-- The step would be a call of `SelectCPU`. -/
def Coupled.callsSelectCPU {rd : Reader} (s : Coupled m rd) : CoupledLabel m → Bool
  | .user (.go _) => match s.user.pc with
    | .select _ => true
    | _ => false
  | _ => false

/-- The record that the goroutine is about to dispatch. -/
def Pc.record? : Pc → Option DispatchedTask
  | .dispatch _ d | .send _ d => some d
  | _ => none

def selectingStep (size : RingSize) (ro : Rodata) {rd : Reader} (s : Selecting m rd) :
    SelectLabel m → Option (Selecting m rd)
  | .select env run =>
    match s.user.pc with
    | .select t =>
      let r := run.retVal ro env t s.world
      (goStep size ⟨r.1, false⟩ s.user).map fun u =>
        ⟨⟨u, s.held, r.2⟩, s.selections ++
          u.pc.record?.toList.map fun d => ⟨t, run.picked ro env t s.world, d⟩⟩
    | _ => none
  | .other l =>
    if s.callsSelectCPU l then none
    else (coupledStep size ro s.toCoupled l).map fun c => ⟨c, s.selections⟩

/-! ### What the record should say -/

/-- The record names the CPU that was picked for its task; without one,
`dispatch_task` puts the task into `SHARED_DSQ`. -/
structure Selection.Right (m : Machine) (x : Selection) : Prop where
  pid : x.record.pid = x.task.pid
  cpu : x.record.cpu = x.picked.getD rlCpuAny
  shared : x.picked = none → ∀ (env : Env m) (race : Option (CpuMask m)) (w : World m),
    w.buf.length < maxDispatchSlot → (w.tasks.find x.record.pid).isSome →
      newInsertions w (dispatchTask env race x.record.ctx w) =
        [⟨x.record.pid, .user sharedDsq, x.record.sliceNs, some x.record.vtime, x.record.flags⟩]

/-- The records handed to `DispatchTask`, with their tasks. -/
def SchedState.dispatches (s : SchedState) : List (QueuedTask × DispatchedTask) :=
  s.sent ++ match s.pc with
    | .dispatch t d | .send t d => [(t, d)]
    | _ => []

/-- Every record handed to `DispatchTask` was made by a selection, and every
selection is right. -/
structure Selecting.PinsSelected {rd : Reader} (s : Selecting m rd) : Prop where
  selected : ∀ x ∈ s.user.dispatches, ∃ y ∈ s.selections, y.task = x.1 ∧ y.record = x.2
  right : ∀ x ∈ s.selections, x.Right m

/-! ### One call of `SelectCPU` -/

/-- `rs_select_cpu` reads the pid and the CPU of the task. -/
theorem rsSelectCpuOn_arg (ro : Rodata) (env : Env m) (t : QueuedTask) (w : World m) :
    rsSelectCpuOn ro env (selectCPUArg t) w = rsSelectCpu ro env t.pid t.cpu w := by
  have hread := cRead_of_image (image_selectCPUArg t)
  have hfields : cRead [.s32, .s32, .u64] (selectCPUArg t) =
      [.s32 (getS32 0 (selectCPUArg t)), .s32 (getS32 4 (selectCPUArg t)),
        .u64 (getU64 8 (selectCPUArg t))] := by
    simp [cRead, readFrom, readAt, alignUp, CKind.size, getS32, getU64]
  have hsame := hfields.symm.trans hread
  simp only [TaskCpuArg.vals, List.cons.injEq, CVal.s32.injEq] at hsame
  rw [rsSelectCpuOn, hsame.1, hsame.2.1]

/-- A run of the program yields the CPU that was picked. -/
theorem selectCPU_ran (ro : Rodata) (env : Env m) (t : QueuedTask) (w : World m) :
    selectCPU (SelectRun.ran.retVal ro env t w).1 =
      (SelectRun.ran.picked ro env t w).getD rlCpuAny := by
  rw [SelectRun.retVal, SelectRun.picked]
  dsimp only
  rw [rsSelectCpuOn_arg, selectCPU_toUInt32, rsSelectCpu]
  rcases w.tasks.find t.pid with _ | p
  · exact if_neg (show ¬ 0 ≤ -eINVAL by decide)
  · rw [Option.bind_some]
    by_cases hcpu : 0 ≤ (pickIdleCpu ro env p t.cpu w).1
    · rw [if_pos hcpu, if_pos hcpu, Option.getD_some]
    · rw [if_neg hcpu, if_neg hcpu, Option.getD_none]

/-- Without a run nothing is picked, but CPU 0 is returned. -/
theorem selectCPU_not_ran {run : SelectRun} (h : run ≠ .ran) (ro : Rodata) (env : Env m)
    (t : QueuedTask) (w : World m) :
    selectCPU (run.retVal ro env t w).1 = 0 ∧ run.picked ro env t w = none := by
  cases run with
  | missing => exact ⟨rfl, rfl⟩
  | failed => exact ⟨rfl, rfl⟩
  | ran => exact absurd rfl h

theorem dispatchRecord_eq_some {nrQueued nrScheduled : UInt64} {ret : Option UInt32}
    {t : QueuedTask} {d : DispatchedTask}
    (h : dispatchRecord nrQueued nrScheduled ret t = some d) :
    d.pid = t.pid ∧ d.cpu = selectCPU ret := by
  rw [dispatchRecord] at h
  dsimp only at h
  split_ifs at h
  obtain rfl := Option.some_inj.mp h
  exact ⟨rfl, rfl⟩

/-- A record with the CPU that was picked, or none, is right. -/
theorem Selection.right_of_cpu {x : Selection} (hpid : x.record.pid = x.task.pid)
    (hcpu : x.record.cpu = x.picked.getD rlCpuAny) : x.Right m := by
  refine ⟨hpid, hcpu, fun hnone env race w hroom hlive => ?_⟩
  rw [hnone, Option.getD_none] at hcpu
  rw [(dispatchTask_performs env race x.record.ctx hroom).newInsertions_eq]
  exact recordInsertions_any hcpu hlive

/-- The selections that a call of `SelectCPU` adds: none if the goroutine panics
before it has a record. -/
theorem selectingStep_select {size : RingSize} {ro : Rodata} {rd : Reader} {s s' : Selecting m rd}
    {env : Env m} {run : SelectRun} (h : selectingStep size ro s (.select env run) = some s') :
    ∃ t, s.user.pc = .select t ∧ s'.world = (run.retVal ro env t s.world).2 ∧
      ((s.user.q.nrQueued + s.user.nrScheduled + 1 = 0 ∧
          s'.user = { s.user with pc := .panicked } ∧ s'.selections = s.selections) ∨
        ∃ d, s.user.q.nrQueued + s.user.nrScheduled + 1 ≠ 0 ∧ d.pid = t.pid ∧
          d.cpu = selectCPU (run.retVal ro env t s.world).1 ∧
          s'.user = { s.user with pc := .dispatch t d } ∧
          s'.selections = s.selections ++ [⟨t, run.picked ro env t s.world, d⟩]) := by
  rw [selectingStep] at h
  split at h
  · rename_i t hpc
    obtain ⟨u, hu, rfl⟩ := Option.map_eq_some_iff.mp h
    refine ⟨t, hpc, rfl, ?_⟩
    rw [goStep, hpc] at hu
    dsimp only at hu
    rcases hrec : dispatchRecord s.user.q.nrQueued s.user.nrScheduled
      (run.retVal ro env t s.world).1 t with _ | d
    · rw [hrec] at hu
      obtain rfl := Option.some_inj.mp hu
      refine Or.inl ⟨?_, rfl, List.append_nil _⟩
      rw [dispatchRecord] at hrec
      dsimp only at hrec
      split_ifs at hrec with hzero
      exact hzero
    · rw [hrec] at hu
      obtain rfl := Option.some_inj.mp hu
      obtain ⟨hpid, hcpu⟩ := dispatchRecord_eq_some hrec
      refine Or.inr ⟨d, fun hzero => ?_, hpid, hcpu, rfl, rfl⟩
      rw [dispatchRecord] at hrec
      dsimp only at hrec
      rw [if_pos hzero] at hrec
      exact absurd hrec (by simp)
  · exact absurd h (by simp)

/-! ### Runs -/

/-- Only a call of `SelectCPU` makes a record. -/
theorem dispatches_move {size : RingSize} {s s' : SchedState} {l : SchedLabel}
    (hmove : SchedMove size s l s') (hsel : ∀ o t, l = .go o → s.pc ≠ .select t) :
    s'.dispatches ⊆ s.dispatches := by
  cases hmove with
  | select hpc hpid => exact absurd hpc (hsel _ _ rfl)
  | selectPanics hpc => exact absurd hpc (hsel _ _ rfl)
  | dispatch hpc hok =>
    intro x hx
    simpa [SchedState.dispatches, hpc] using hx
  | send hpc =>
    intro x hx
    simpa [SchedState.dispatches, hpc] using hx
  | refill hpc hto =>
    intro x hx
    rcases hto with rfl | rfl <;> simpa [SchedState.dispatches, hpc] using hx
  | drainEmpty hpc hroom hpid =>
    intro x hx
    rw [afterDrain] at hx
    split_ifs at hx <;> simpa [SchedState.dispatches, hpc] using hx
  | drainFull hpc hroom =>
    intro x hx
    simpa [SchedState.dispatches, afterDrain, hpc] using hx
  | submit hq => exact List.Subset.refl _
  | count hq => exact List.Subset.refl _
  | deliver hq => exact List.Subset.refl _
  | receive hd => exact List.Subset.refl _
  | peek hpc hq => exact List.Subset.refl _
  | dispatchFails hpc herr =>
    intro x hx
    simp only [SchedState.dispatches, List.append_nil] at hx
    exact List.mem_append_left _ hx
  | _ =>
    intro x hx
    simpa [SchedState.dispatches, *] using hx

theorem dispatches_coupledStep {size : RingSize} {ro : Rodata} {rd : Reader}
    {s s' : Coupled m rd} {l : CoupledLabel m} (hl : s.callsSelectCPU l = false)
    (h : coupledStep size ro s l = some s') : s'.user.dispatches ⊆ s.user.dispatches := by
  cases l with
  | user l =>
    have hsel : ∀ o t, l = .go o → s.user.pc ≠ .select t := by
      rintro o t rfl hpc
      rw [Coupled.callsSelectCPU, hpc] at hl
      exact absurd hl (by simp)
    by_cases hrec : l = .receive
    · subst hrec
      obtain ⟨data, u, hu, -, rfl⟩ := coupledStep_receive h
      exact dispatches_move (schedMove_of_step hu) hsel
    · obtain ⟨u, hu, rfl⟩ := coupledStep_user hrec h
      exact dispatches_move (schedMove_of_step hu) hsel
  | write free =>
    obtain rfl := Option.some_inj.mp h
    exact List.Subset.refl _
  | kernel l =>
    obtain ⟨-, w, -, rfl⟩ := coupledStep_kernel h
    exact List.Subset.refl _
  | lose n =>
    obtain ⟨-, rfl⟩ := coupledStep_lose h
    exact List.Subset.refl _

/-- The program is there and can be run, or the goroutine panics before it has a
record. -/
def Selects {rd : Reader} (s : Selecting m rd) : SelectLabel m → Prop
  | .select _ run => run = .ran ∨ s.user.q.nrQueued + s.user.nrScheduled + 1 = 0
  | .other _ => True

theorem pinsSelected_step {size : RingSize} {ro : Rodata} {rd : Reader} {s s' : Selecting m rd}
    {l : SelectLabel m} (hs : s.PinsSelected) (hl : Selects s l) (h : selectingStep size ro s l = some s') :
    s'.PinsSelected := by
  cases l with
  | select env run =>
    obtain ⟨t, hpc, -, ⟨-, huser, hsel⟩ | ⟨d, hwaiting, hpid, hcpu, huser, hsel⟩⟩ :=
      selectingStep_select h
    · refine ⟨fun x hx => ?_, by rw [hsel]; exact hs.right⟩
      rw [hsel]
      rw [huser] at hx
      exact hs.selected x (by simpa [SchedState.dispatches, hpc] using hx)
    · have hran : run = .ran := hl.resolve_right hwaiting
      subst hran
      refine ⟨fun x hx => ?_, fun y hy => ?_⟩
      · rw [huser] at hx
        rw [hsel]
        rcases List.mem_append.mp hx with hold | hnew
        · obtain ⟨y, hy, htask, hrecord⟩ := hs.selected x (List.mem_append_left _ hold)
          exact ⟨y, List.mem_append_left _ hy, htask, hrecord⟩
        · rw [List.mem_singleton.mp hnew]
          exact ⟨_, List.mem_append_right _ (List.mem_singleton_self _), rfl, rfl⟩
      · rw [hsel] at hy
        rcases List.mem_append.mp hy with hold | hnew
        · exact hs.right y hold
        · rw [List.mem_singleton.mp hnew]
          exact Selection.right_of_cpu hpid (hcpu.trans (selectCPU_ran ro env t s.world))
  | other l =>
    rw [selectingStep] at h
    split_ifs at h with hcalls
    obtain ⟨c, hc, rfl⟩ := Option.map_eq_some_iff.mp h
    refine ⟨fun x hx => hs.selected x ?_, hs.right⟩
    exact dispatches_coupledStep (by simpa using hcalls) hc hx

/-- Without a run of the program the record names CPU 0. -/
theorem not_pinsSelected {size : RingSize} {ro : Rodata} {rd : Reader} {s s' : Selecting m rd}
    {l : SelectLabel m} (hl : ¬ Selects s l) (h : selectingStep size ro s l = some s') : ¬ s'.PinsSelected := by
  cases l with
  | select env run =>
    rw [Selects, not_or] at hl
    obtain ⟨t, -, -, ⟨hzero, -⟩ | ⟨d, -, -, hcpu, -, hsel⟩⟩ := selectingStep_select h
    · exact absurd hzero hl.2
    · intro hs'
      obtain ⟨hret, hpicked⟩ := selectCPU_not_ran hl.1 ro env t s.world
      have hright := (hs'.right ⟨t, run.picked ro env t s.world, d⟩ (by rw [hsel]; simp)).cpu
      dsimp only at hright
      rw [hcpu, hret, hpicked, Option.getD_none] at hright
      exact absurd hright (by decide)
  | other l => exact absurd trivial hl

/-- **A task is pinned to the CPU that was selected for it, exactly when the program
for the selection runs.**  For every interleaving of the goroutine, the poller, the
reader of `s.dispatch` and the kernel, any outcome of each selection and any records. -/
theorem pinned_iff_ran (size : RingSize) (ro : Rodata) (rd : Reader) (w₀ : World m)
    (ls : List (SelectLabel m)) :
    (∀ s, Visits (selectingStep size ro) (Selecting.init rd w₀) ls s → s.PinsSelected) ↔
      ∀ s l, Takes (selectingStep size ro) (Selecting.init rd w₀) ls s l → Selects s l := by
  refine visits_iff_takes ⟨fun x hx => ?_, fun x hx => ?_⟩ (fun s hs => hs)
    (fun s l s' hs hl h => pinsSelected_step hs hl h)
    (fun s l s' _ hl h => not_pinsSelected hl h)
  · exact absurd hx (by simp [Selecting.init, Coupled.init, SchedState.init, SchedState.dispatches])
  · exact absurd hx List.not_mem_nil

/-- Ten records arrive, the goroutine drains them and takes a task from its pool; the
program is missing; the record is sent and handled. -/
def missingProgram : List (SelectLabel twoCpus) :=
  (tenNewTasks.take 45).map (fun l => .other (.user l)) ++
    [.select (Env.lowest cpu0) .missing, .other (.user (.go ⟨none, false⟩)),
      .other (.user (.go ⟨none, false⟩)), .other (.user .receive), .other (.write 4096),
      .other (.kernel (.dispatch (Env.lowest cpu0) cpu0 none))]

/-- No CPU was picked for task 7, but its record names CPU 0, and the task ends up in
the queue of CPU 0. -/
theorem missing_program_pins_cpu0 :
    let s₀ : Selecting twoCpus queueReader :=
      .init _ (startedWorld ((TaskTable.empty twoCpus).set (plainTask 7)))
    (∃ s, run (selectingStep ringSize plainRodata) s₀ missingProgram = some s ∧
      s.selections.map (fun x => (x.task.pid, x.picked, x.record.cpu)) = [(7, none, 0)] ∧
      (s.world.log.filterMap Event.insertion).map (fun i => (i.pid, i.dsq)) = [(7, .user 0)]) ∧
    ¬ ∀ s, Visits (selectingStep ringSize plainRodata) s₀ missingProgram s → s.PinsSelected := by
  intro s₀
  have heval : (run (selectingStep ringSize plainRodata) s₀ missingProgram).map (fun s =>
      (s.selections.map (fun x => (x.task.pid, x.picked, x.record.cpu)),
        (s.world.log.filterMap Event.insertion).map fun i => (i.pid, i.dsq))) =
      some ([(7, none, 0)], [(7, .user 0)]) := by decide +kernel
  obtain ⟨s, hs, heq⟩ := Option.map_eq_some_iff.mp heval
  obtain ⟨hsel, hins⟩ := Prod.mk.inj heq
  refine ⟨⟨s, hs, hsel, hins⟩, fun h => ?_⟩
  obtain ⟨x, hx, hval⟩ := List.mem_map.mp (hsel ▸ List.mem_singleton_self _ :
    ((7 : Int32), (none : Option Int32), (0 : Int32)) ∈
      s.selections.map fun x => (x.task.pid, x.picked, x.record.cpu))
  obtain ⟨-, hval⟩ := Prod.mk.inj hval
  obtain ⟨hpicked, hcpu⟩ := Prod.mk.inj hval
  have hright := ((h s (visits_of_run hs)).right x hx).cpu
  rw [hpicked, hcpu] at hright
  exact absurd hright (by decide)

end ScxGoland
