/-
The scheduler as a system: the callbacks, the kernel and user space.

Every callback is one step, interleaved with what the kernel and user space do
in between: tasks are created, change, are dequeued and exit, CPUs become idle,
and user space reads records from `@queued` and pushes arbitrary bytes into
`@dispatched`.
-/
import ScxGoland.Callbacks
import ScxGoland.Enqueue
import ScxGoland.UserDispatch

namespace ScxGoland

variable {m : Machine}

/-- One step of the kernel, of the BPF program or of user space. -/
inductive Label (m : Machine) where
  -- the kernel changes its tasks
  | fork (p : TaskStruct m)
  | change (p : TaskStruct m)
  | setAffinity (pid : Int32) (mask : CpuMask m)
  | dequeue (pid : Int32)
  -- callbacks about one task
  | selectCpu (env : Env m) (pid prevCpu : Int32) (wakeFlags : UInt64)
  | enqueue (env : Env m) (pid : Int32) (enqFlags : UInt64)
  | runnable (pid : Int32)
  | running (env : Env m) (pid : Int32)
  | stopping (env : Env m) (pid : Int32)
  | cpuRelease (pid : Int32)
  | enable (pid : Int32)
  | initTask (allocs : Allocs) (pid : Int32)
  | exitTask (pid : Int32)
  -- the other programs
  | dispatch (env : Env m) (cpu : Cpu m) (prev : Option Int32)
  | timer (env : Env m) (armed : Bool)
  | preempt (cpuId : Int32)
  | rsSelectCpu (env : Env m) (pid cpu : Int32)
  | siblingCpu (alloc : Bool) (lvlId cpuId siblingCpuId : Int32)
  -- user space, and the rest of the machine
  | push (data : Bytes)
  | consume
  | setCounters (b : Bss)
  | setIdle (idle idleSmt : CpuMask m)
  | setDsqs (dsqs : UInt64 → Option ℕ)

/-- The system.  Affinity changes between callbacks dequeue the task (its
re-enqueue is a step of its own); that `dispatch_task` does not find the affinity
changed between its two tests is an assumption, which `stepRacing` drops.  A task
that exits is no longer queued, and its task-local storage is freed. -/
def step (ro : Rodata) (w : World m) : Label m → Option (World m)
  | .fork p =>
    if (w.tasks.find p.pid).isSome then none else some { w with tasks := w.tasks.set p }
  | .change p => (w.tasks.find p.pid).map fun old =>
    { w with tasks := w.tasks.set { p with cpusPtr := old.cpusPtr } }
  | .setAffinity pid mask => (w.tasks.find pid).map fun p =>
    ({ w with
      tasks := w.tasks.set { p with cpusPtr := mask, nrCpusAllowed := mask.card } } : World m).emit
        (.dequeued pid)
  | .dequeue pid => (w.tasks.find pid).map fun _ => w.emit (.dequeued pid)
  | .selectCpu env pid prevCpu wakeFlags => (w.tasks.find pid).map fun p =>
    (golandSelectCpu ro env p prevCpu wakeFlags w).2
  | .enqueue env pid enqFlags => (w.tasks.find pid).map fun p =>
    (golandEnqueue ro env p enqFlags (w.emit (.enqueueCalled pid))).emit (.enqueueReturned pid)
  | .runnable pid => (w.tasks.find pid).map fun p => golandRunnable ro p w
  | .running env pid => (w.tasks.find pid).map fun p => golandRunning ro env p w
  | .stopping env pid => (w.tasks.find pid).map fun p => golandStopping ro env p w
  | .cpuRelease pid => (w.tasks.find pid).map fun p => golandCpuRelease ro p w
  | .enable pid => (w.tasks.find pid).map fun p => golandEnable p w
  | .initTask allocs pid => (w.tasks.find pid).map fun p => (golandInitTask allocs p w).2
  | .exitTask pid => (w.tasks.find pid).map fun p =>
    ({ golandExitTask p w with
      tasks := w.tasks.remove pid
      taskCtx := Function.update w.taskCtx pid none } : World m).emit (.dequeued pid)
  | .dispatch env cpu prev => some (golandDispatch ro env (fun _ => none) cpu prev w)
  | .timer env armed => some (userschedTimerFn ro env armed w)
  | .preempt cpuId => some (doPreempt cpuId w).2
  | .rsSelectCpu env pid cpu => some (rsSelectCpu ro env pid cpu w).2
  | .siblingCpu alloc lvlId cpuId siblingCpuId =>
    some (enableSiblingCpu alloc lvlId cpuId siblingCpuId w).2
  | .push data => some { w with dispatched := w.dispatched ++ [data] }
  | .consume => some { w with queued := w.queued.tail }
  | .setCounters b => some { w with bss := b }
  | .setIdle idle idleSmt => some { w with idle := idle, idleSmt := idleSmt }
  | .setDsqs dsqs => some { w with dsqs := dsqs }

/-- The system in which a task's affinity may also change between the two tests
of `dispatch_task`: `races i` during the `i`-th sample of the drain. -/
def stepRacing (ro : Rodata) (w : World m) :
    Label m × (ℕ → Option (CpuMask m)) → Option (World m)
  | (.dispatch env cpu prev, races) => some (golandDispatch ro env races cpu prev w)
  | (l, _) => step ro w l

theorem stepRacing_cases {ro : Rodata} {w w' : World m} {l : Label m × (ℕ → Option (CpuMask m))}
    (h : stepRacing ro w l = some w') :
    (∃ env cpu prev, l.1 = .dispatch env cpu prev ∧ golandDispatch ro env l.2 cpu prev w = w') ∨
      (∀ env cpu prev, l.1 ≠ .dispatch env cpu prev) ∧ step ro w l.1 = some w' := by
  obtain ⟨l, races⟩ := l
  cases l with
  | dispatch env cpu prev => exact Or.inl ⟨env, cpu, prev, rfl, Option.some_inj.mp h⟩
  | _ => exact Or.inr ⟨fun _ _ _ hl => absurd hl (by simp), h⟩

/-- The steps that insert nothing and leave the tasks that are alive and
`priority_tasks` alone. -/
def Label.isCalm : Label m → Bool
  | .fork _ | .change _ | .setAffinity _ _ | .dequeue _ | .selectCpu _ _ _ _ | .enqueue _ _ _
  | .exitTask _ | .dispatch _ _ _ => false
  | _ => true

theorem calm_of_step {ro : Rodata} {w w' : World m} {l : Label m} (hl : l.isCalm = true)
    (h : step ro w l = some w') : Calm w w' := by
  cases l with
  | runnable pid =>
    obtain ⟨p, -, rfl⟩ := Option.map_eq_some_iff.mp h
    exact calm_runnable ro p w
  | running env pid =>
    obtain ⟨p, -, rfl⟩ := Option.map_eq_some_iff.mp h
    exact calm_running ro env p w
  | stopping env pid =>
    obtain ⟨p, -, rfl⟩ := Option.map_eq_some_iff.mp h
    exact calm_stopping ro env p w
  | cpuRelease pid =>
    obtain ⟨p, -, rfl⟩ := Option.map_eq_some_iff.mp h
    exact calm_cpuRelease ro p w
  | enable pid =>
    obtain ⟨p, -, rfl⟩ := Option.map_eq_some_iff.mp h
    exact calm_enable p w
  | initTask allocs pid =>
    obtain ⟨p, -, rfl⟩ := Option.map_eq_some_iff.mp h
    exact calm_initTask p w allocs
  | timer env armed =>
    obtain rfl := Option.some_inj.mp h
    exact calm_timer ro env w armed
  | preempt cpuId =>
    obtain rfl := Option.some_inj.mp h
    exact calm_doPreempt w cpuId
  | rsSelectCpu env pid cpu =>
    obtain rfl := Option.some_inj.mp h
    exact calm_rsSelectCpu ro env w pid cpu
  | siblingCpu alloc lvlId cpuId siblingCpuId =>
    obtain rfl := Option.some_inj.mp h
    exact calm_enableSiblingCpu w alloc lvlId cpuId siblingCpuId
  | push data =>
    obtain rfl := Option.some_inj.mp h
    exact Calm.of_eq rfl rfl rfl rfl
  | consume =>
    obtain rfl := Option.some_inj.mp h
    exact Calm.of_eq rfl rfl rfl rfl
  | setCounters b =>
    obtain rfl := Option.some_inj.mp h
    exact Calm.of_eq rfl rfl rfl rfl
  | setIdle idle idleSmt =>
    obtain rfl := Option.some_inj.mp h
    exact Calm.of_eq rfl rfl rfl rfl
  | setDsqs dsqs =>
    obtain rfl := Option.some_inj.mp h
    exact Calm.of_eq rfl rfl rfl rfl
  | _ => exact absurd hl (by simp [Label.isCalm])

/-- The events between two worlds, newest first. -/
def newEvents (w w' : World m) : List Event := w'.log.take (w'.log.length - w.log.length)

theorem newEvents_eq {w w' : World m} {es : List Event} (h : w'.log = es ++ w.log) :
    newEvents w w' = es := by
  rw [newEvents, h, List.length_append, Nat.add_sub_cancel]
  exact List.take_left

end ScxGoland
