/-
The dispatch counters as a ledger of the insertions.

`try_direct_dispatch`, `goland_enqueue` and `dispatch_task` insert at nine places,
and count beside eight of them.

* `Books w w'` — as many dispatches were counted from `w` to `w'` as insertions
  were performed;
* `Enqueueing.books`, `books_handle` — an enqueue, and a record that names a CPU, keep
  the ledger;
* `ledger_iff` — in every run on tasks outside of the scheduler's process, the
  counters add up to the number of insertions exactly as long as every record
  handled for a live task names a CPU: the insertion for `RL_CPU_ANY` is not
  counted.
-/
import ScxGoland.DsqInit
import ScxGoland.Insertions

open Runs

namespace ScxGoland

variable {m : Machine}

/-! ### The ledger -/

/-- The insertions performed so far. -/
def World.insertions (w : World m) : ℕ := (w.log.filterMap Event.insertion).length

/-- The insertions counted so far. -/
def Bss.dispatches (b : Bss) : UInt64 :=
  b.nrUserDispatches + b.nrKernelDispatches + b.nrBounceDispatches

/-- The counters add up to the number of insertions, as far as 64 bits go. -/
def World.Balanced (w : World m) : Prop := UInt64.ofNat w.insertions = w.bss.dispatches

/-- From `w` to `w'` every insertion was counted once, and nothing else was. -/
def Books (w w' : World m) : Prop :=
  ∃ is, Performs is w w' ∧ w'.bss.dispatches = w.bss.dispatches + UInt64.ofNat is.length

theorem Performs.insertions_eq {is : List Insertion} {w w' : World m} (h : Performs is w w') :
    w'.insertions = w.insertions + is.length := by
  obtain ⟨es, hes, his⟩ := h
  rw [World.insertions, World.insertions, hes, List.filterMap_append, List.length_append, his,
    Nat.add_comm]

namespace Books

variable {w w₁ w₂ w₃ : World m}

theorem balanced (h : Books w₁ w₂) (hw : w₁.Balanced) : w₂.Balanced := by
  obtain ⟨is, hperf, hcount⟩ := h
  rw [World.Balanced, hperf.insertions_eq, UInt64.ofNat_add, hcount, hw]

theorem of_performs_nil (h : Performs [] w₁ w₂) (hbss : w₂.bss.dispatches = w₁.bss.dispatches) :
    Books w₁ w₂ := ⟨[], h, by rw [hbss]; exact (UInt64.add_zero _).symm⟩

theorem of_quiet (h : Quiet w₁ w₂) : Books w₁ w₂ :=
  of_performs_nil (Performs.of_quiet h) (by rw [h.bss])

theorem of_calm (h : Calm w₁ w₂) (hbss : w₂.bss.dispatches = w₁.bss.dispatches) : Books w₁ w₂ := by
  obtain ⟨es, hes, hquiet⟩ := h.log
  refine of_performs_nil ⟨es, hes, List.filterMap_eq_nil_iff.mpr fun e he => ?_⟩ hbss
  exact Event.insertion_of_quiet (hquiet e he)

theorem trans (h : Books w₁ w₂) (h' : Books w₂ w₃) : Books w₁ w₃ := by
  obtain ⟨is, hperf, hcount⟩ := h
  obtain ⟨is', hperf', hcount'⟩ := h'
  refine ⟨is' ++ is, hperf.trans hperf', ?_⟩
  rw [hcount', hcount, List.length_append, UInt64.ofNat_add, UInt64.add_assoc,
    UInt64.add_comm (UInt64.ofNat is.length)]

/-- An insertion with its counter. -/
theorem insert {ctx : OpsCtx} {i : Insertion} (h : Performs [i] w (w.insert ctx i)) {f : Bss → Bss}
    (hf : ∀ b, (f b).dispatches = b.dispatches + 1) : Books w ((w.insert ctx i).updBss f) := by
  refine ⟨[i], h.then_nil (Performs.updBss _ f), (hf _).trans ?_⟩
  have hbss : (w.insert ctx i).bss = w.bss := by
    cases ctx with
    | direct => rfl
    | dispatch =>
      rw [World.insert]
      dsimp only
      split_ifs <;> rfl
  rw [hbss]
  rfl

end Books

theorem dispatches_user (b : Bss) :
    ({ b with nrUserDispatches := b.nrUserDispatches + 1 } : Bss).dispatches =
      b.dispatches + 1 := by
  simp only [Bss.dispatches]
  grind

theorem dispatches_kernel (b : Bss) :
    ({ b with nrKernelDispatches := b.nrKernelDispatches + 1 } : Bss).dispatches =
      b.dispatches + 1 := by
  simp only [Bss.dispatches]
  grind

theorem dispatches_bounce (b : Bss) :
    ({ b with nrBounceDispatches := b.nrBounceDispatches + 1 } : Bss).dispatches =
      b.dispatches + 1 := by
  simp only [Bss.dispatches]
  grind

/-! ### `goland_select_cpu` and `goland_enqueue` -/

/-- Every insertion for a task that is not a thread of the scheduler is counted. -/
theorem Enqueueing.books {p : TaskStruct m} {enqFlags : UInt64} {w w' : World m}
    (h : Enqueueing false p enqFlags w w') : Books w w' := by
  refine effects_rule (R := Books) (fun w => .of_quiet (Quiet.refl w)) Books.trans
    (fun {w w'} heffect => ?_) h
  cases heffect with
  | search hsearch => exact .of_quiet (Searching.one hsearch).quiet
  | thread hown => exact absurd hown (by simp)
  | kernel id slice => exact Books.insert (Performs.insert_direct w _) dispatches_kernel
  | priority c hslice => exact Books.insert (Performs.insert_direct w _) dispatches_user
  | submit => exact .of_performs_nil ⟨[.submitted (getTaskInfo p enqFlags w)], rfl, rfl⟩ rfl
  | congested => exact .of_performs_nil (Performs.updBss w _) rfl

/-- The enqueue of a task outside of the scheduler's process. -/
theorem books_golandEnqueue (ro : Rodata) (env : Env m) (p : TaskStruct m) (enqFlags : UInt64)
    (w : World m) (hown : isBelongUserschedTask ro p = false) :
    Books w (golandEnqueue ro env p enqFlags w) := by
  have hpaths := enqueueing_golandEnqueue ro env p enqFlags w
  rw [hown] at hpaths
  exact hpaths.books

/-! ### `dispatch_task` -/

section Dispatch

variable (env : Env m) {task : DispatchedTaskCtx} {w : World m}

theorem books_insertOnCpu (p : TaskStruct m) (hroom : w.buf.length < maxDispatchSlot) :
    Books w (insertOnCpu p task w) := by
  have hq := Quiet.cpuToDsq w task.cpu
  exact (Books.of_quiet hq).trans
    (Books.insert (Performs.insert_dispatch _ (by rw [hq.buf]; exact hroom)) dispatches_user)

theorem books_insertByVtime (p : TaskStruct m) (hroom : w.buf.length < maxDispatchSlot) :
    Books w (insertByVtime p task w) := by
  rw [insertByVtime_eq]
  split_ifs
  · exact .of_quiet (Quiet.refl w)
  · exact books_insertOnCpu p hroom

theorem books_updatePriorityTaskMap (w : World m) (pid : UInt32) (vtime slice : UInt64) :
    Books w (w.updatePriorityTaskMap pid vtime slice) := by
  refine .of_performs_nil (Performs.updatePriorityTaskMap w pid vtime slice) ?_
  rw [World.updatePriorityTaskMap]
  split_ifs <;> rfl

/-- A record for a task that is gone, or one that names a CPU. -/
theorem books_handle (hroom : w.buf.length < maxDispatchSlot)
    (hcpu : (w.tasks.find task.pid).isSome → task.cpu ≠ rlCpuAny) :
    Books w (dispatchTask env none task w) := by
  rw [dispatchTask]
  split
  · exact .of_quiet (Quiet.refl w)
  · rename_i p hp
    dsimp only
    rw [if_neg (hcpu (by rw [hp]; rfl)), Option.getD_none]
    split_ifs with hmask
    · exact (Books.insert (Performs.insert_dispatch _ hroom) dispatches_bounce).trans
        (Books.of_quiet (quiet_kickTaskCpu _ _ _ _))
    · exact ((books_insertByVtime p hroom).trans (books_updatePriorityTaskMap _ _ _ _)).trans
        (Books.of_quiet (Quiet.kick _ _ _))

/-- The insertion for `RL_CPU_ANY` is not counted. -/
theorem not_balanced_any (hroom : w.buf.length < maxDispatchSlot)
    (hlive : (w.tasks.find task.pid).isSome) (hany : task.cpu = rlCpuAny) (hw : w.Balanced) :
    ¬ (dispatchTask env none task w).Balanced := by
  have hperf := dispatchTask_performs env none task hroom
  rw [recordInsertions_any hany hlive] at hperf
  have hbss : (dispatchTask env none task w).bss = w.bss := by
    obtain ⟨p, hp⟩ := Option.isSome_iff_exists.mp hlive
    rw [dispatchTask, hp]
    dsimp only
    rw [if_pos hany, (quiet_kickTaskCpu _ _ _ _).bss, World.scxBpfDsqInsertVtime, World.insert]
    dsimp only
    split_ifs <;> rfl
  rw [World.Balanced, hperf.insertions_eq, hbss, ← hw, List.length_singleton, UInt64.ofNat_add]
  intro hcon
  exact absurd (UInt64.add_eq_left.mp hcon) (by decide)

end Dispatch

/-! ### Runs -/

/-- The runs that the ledger is about: tasks of the scheduler's process are not
enqueued, no affinity changes inside of `dispatch_task`, and user space leaves the
three counters alone. -/
def inLedger (ro : Rodata) (w : World m) : FineLabel m → Bool
  | .sys (.enqueue _ pid _) => (w.tasks.find pid).all fun p => !isBelongUserschedTask ro p
  | .sys (.setCounters b) => b.nrUserDispatches = w.bss.nrUserDispatches ∧
      b.nrKernelDispatches = w.bss.nrKernelDispatches ∧
      b.nrBounceDispatches = w.bss.nrBounceDispatches
  | .handle _ race _ => race.isNone
  | _ => true

def ledgerStep (ro : Rodata) (w : World m) (l : FineLabel m) : Option (World m) :=
  if inLedger ro w l then fineStep ro w l else none

/-- A record for a live task names a CPU. -/
def NamesCpu (w : World m) : FineLabel m → Prop
  | .handle _ _ task => (w.tasks.find task.pid).isSome → task.cpu ≠ rlCpuAny
  | _ => True

theorem bss_triggerUsersched (ro : Rodata) (env : Env m) (w : World m) :
    (triggerUsersched ro env w).bss = w.bss := by
  rw [triggerUsersched]
  split
  · rfl
  · rename_i p _
    have hpick := Quiet.pickIdle { w with userschedNeeded := true } env p.cpusPtr false
    dsimp only
    split_ifs
    · exact hpick.bss
    · exact hpick.bss

/-- None of the calm steps counts a dispatch. -/
theorem dispatches_of_calm {ro : Rodata} {w w' : World m} {l : Label m}
    (hscope : inLedger ro w (.sys l) = true) (hl : l.isCalm = true) (h : step ro w l = some w') :
    w'.bss.dispatches = w.bss.dispatches := by
  cases l with
  | runnable pid =>
    obtain ⟨p, -, rfl⟩ := Option.map_eq_some_iff.mp h
    rw [golandRunnable]
    split_ifs <;> rfl
  | running env pid =>
    obtain ⟨p, -, rfl⟩ := Option.map_eq_some_iff.mp h
    rw [golandRunning]
    split_ifs <;> rfl
  | stopping env pid =>
    obtain ⟨p, -, rfl⟩ := Option.map_eq_some_iff.mp h
    rw [golandStopping]
    split_ifs <;> rfl
  | cpuRelease pid =>
    obtain ⟨p, -, rfl⟩ := Option.map_eq_some_iff.mp h
    rw [golandCpuRelease]
    split_ifs <;> rfl
  | enable pid =>
    obtain ⟨p, -, rfl⟩ := Option.map_eq_some_iff.mp h
    rfl
  | initTask allocs pid =>
    obtain ⟨p, -, rfl⟩ := Option.map_eq_some_iff.mp h
    rw [golandInitTask]
    split
    · rfl
    · dsimp only
      split_ifs <;> rfl
  | timer env armed =>
    obtain rfl := Option.some_inj.mp h
    have htrigger := congrArg Bss.dispatches (bss_triggerUsersched ro env w)
    rw [userschedTimerFn]
    split_ifs
    · exact htrigger
    · rfl
    · exact htrigger
    · rfl
  | rsSelectCpu env pid cpu =>
    obtain rfl := Option.some_inj.mp h
    rw [rsSelectCpu]
    split
    · rfl
    · rw [(quiet_pickIdleCpu ro env _ cpu w).bss]
  | siblingCpu alloc lvlId cpuId siblingCpuId =>
    obtain rfl := Option.some_inj.mp h
    rw [enableSiblingCpu]
    dsimp only
    split_ifs
    · split <;> rfl
    · split <;> rfl
    · rfl
    · rfl
  | setCounters b =>
    obtain rfl := Option.some_inj.mp h
    obtain ⟨huser, hkernel, hbounce⟩ := of_decide_eq_true hscope
    show b.dispatches = w.bss.dispatches
    rw [Bss.dispatches, huser, hkernel, hbounce]
    rfl
  | preempt _ | push _ | consume | setIdle _ _ | setDsqs _ =>
    obtain rfl := Option.some_inj.mp h
    rfl
  | _ => exact absurd hl (by simp [Label.isCalm])

theorem books_sys {ro : Rodata} {w w' : World m} {l : Label m}
    (hscope : inLedger ro w (.sys l) = true) (hdispatch : ∀ env cpu prev, l ≠ .dispatch env cpu prev)
    (h : step ro w l = some w') : Books w w' := by
  by_cases hl : l.isCalm = true
  · exact .of_calm (calm_of_step hl h) (dispatches_of_calm hscope hl h)
  cases l with
  | fork p =>
    rw [step] at h
    split_ifs at h
    obtain rfl := Option.some_inj.mp h
    exact .of_performs_nil (Performs.of_log rfl) rfl
  | change p =>
    obtain ⟨old, -, rfl⟩ := Option.map_eq_some_iff.mp h
    exact .of_performs_nil (Performs.of_log rfl) rfl
  | setAffinity pid mask =>
    obtain ⟨p, -, rfl⟩ := Option.map_eq_some_iff.mp h
    exact .of_performs_nil ⟨[.dequeued pid], rfl, rfl⟩ rfl
  | dequeue pid =>
    obtain ⟨p, -, rfl⟩ := Option.map_eq_some_iff.mp h
    exact .of_performs_nil ⟨[.dequeued pid], rfl, rfl⟩ rfl
  | selectCpu env pid prevCpu wakeFlags =>
    obtain ⟨p, -, rfl⟩ := Option.map_eq_some_iff.mp h
    exact (enqueueing_golandSelectCpu ro env p prevCpu wakeFlags w).books
  | enqueue env pid enqFlags =>
    obtain ⟨p, hp, rfl⟩ := Option.map_eq_some_iff.mp h
    have hown : isBelongUserschedTask ro p = false := by simpa [inLedger, hp] using hscope
    have hcall : Books w (w.emit (.enqueueCalled pid)) :=
      .of_performs_nil (Performs.emit w rfl) rfl
    exact (hcall.trans (books_golandEnqueue ro env p enqFlags _ hown)).trans
      (.of_performs_nil (Performs.emit _ rfl) rfl)
  | exitTask pid =>
    obtain ⟨p, -, rfl⟩ := Option.map_eq_some_iff.mp h
    exact .of_performs_nil ⟨[.dequeued pid], rfl, rfl⟩ rfl
  | dispatch env cpu prev => exact absurd rfl (hdispatch env cpu prev)
  | _ => exact absurd rfl hl

theorem ledgerStep_handle {ro : Rodata} {w w' : World m} {env : Env m} {race : Option (CpuMask m)}
    {task : DispatchedTaskCtx} (h : ledgerStep ro w (.handle env race task) = some w') :
    w.buf.length < maxDispatchSlot ∧ w' = dispatchTask env none task w := by
  rw [ledgerStep] at h
  split_ifs at h with hscope
  obtain rfl : race = none := Option.isNone_iff_eq_none.mp hscope
  exact fineStep_handle h

theorem booked_step {ro : Rodata} {w w' : World m} {l : FineLabel m} (hw : w.Balanced)
    (hl : NamesCpu w l) (h : ledgerStep ro w l = some w') : w'.Balanced := by
  cases l with
  | sys l =>
    rw [ledgerStep] at h
    split_ifs at h with hscope
    obtain ⟨hdispatch, h⟩ := fineStep_sys h
    exact (books_sys hscope hdispatch h).balanced hw
  | handle env race task =>
    obtain ⟨hroom, rfl⟩ := ledgerStep_handle h
    exact (books_handle env hroom hl).balanced hw
  | flush =>
    obtain rfl := Option.some_inj.mp h
    exact hw

/-- **The dispatch counters are a ledger exactly as long as every record names a
CPU.**  For every run of `goland_select_cpu`, `goland_enqueue`, `dispatch_task` and
all other steps on tasks outside of the scheduler's process, with any records and
any configuration. -/
theorem ledger_iff (ro : Rodata) (w₀ : World m) (hlog : w₀.log = [])
    (hzero : w₀.bss.nrUserDispatches = 0 ∧ w₀.bss.nrKernelDispatches = 0 ∧
      w₀.bss.nrBounceDispatches = 0) (ls : List (FineLabel m)) :
    (∀ w, Visits (ledgerStep ro) w₀ ls w →
      UInt64.ofNat w.insertions = w.bss.nrUserDispatches + w.bss.nrKernelDispatches +
        w.bss.nrBounceDispatches) ↔
      ∀ w l, Takes (ledgerStep ro) w₀ ls w l → NamesCpu w l := by
  have hinit : w₀.Balanced := by
    rw [World.Balanced, World.insertions, hlog, Bss.dispatches, hzero.1, hzero.2.1, hzero.2.2]
    rfl
  refine visits_iff_takes (I := World.Balanced) hinit (fun w hw => hw)
    (fun w l w' hw hl h => booked_step hw hl h) fun w l w' hw hl h => ?_
  cases l with
  | handle env race task =>
    obtain ⟨hroom, rfl⟩ := ledgerStep_handle h
    rw [NamesCpu, Classical.not_imp, not_not] at hl
    exact not_balanced_any env hroom hl.1 hl.2 hw
  | sys l => exact absurd trivial hl
  | flush => exact absurd trivial hl

/-- One record without a CPU: the task is inserted, and no counter moves. -/
theorem any_cpu_record_not_booked :
    let ls : List (FineLabel twoCpus) := [.handle (Env.lowest cpu0) none ⟨7, rlCpuAny, 0, 1000, 42⟩]
    onlyTask7.log = [] ∧ onlyTask7.bss.dispatches = 0 ∧
      (∃ w, run (ledgerStep plainRodata) onlyTask7 ls = some w ∧ w.insertions = 1 ∧
        w.bss.dispatches = 0) ∧
      ¬ ∀ w, Visits (ledgerStep plainRodata) onlyTask7 ls w →
        UInt64.ofNat w.insertions = w.bss.nrUserDispatches + w.bss.nrKernelDispatches +
          w.bss.nrBounceDispatches := by
  intro ls
  have heval : (run (ledgerStep plainRodata) onlyTask7 ls).map
      (fun w => (w.insertions, w.bss.dispatches)) = some (1, 0) := by decide +kernel
  obtain ⟨w, hw, heq⟩ := Option.map_eq_some_iff.mp heval
  obtain ⟨hins, hcount⟩ := Prod.mk.inj heq
  refine ⟨rfl, rfl, ⟨w, hw, hins, hcount⟩, fun h => ?_⟩
  have hbalanced : UInt64.ofNat w.insertions = w.bss.dispatches := h w (visits_of_run hw)
  rw [hins, hcount] at hbalanced
  exact absurd hbalanced (by decide)

/-- Task 7 is enqueued, gets a record for CPU 1 and one for a CPU that does not exist:
one insertion for each of the records, and none for the enqueue. -/
def bookedRun : List (FineLabel twoCpus) :=
  [.sys (.enqueue (Env.lowest cpu0) 7 0), .handle (Env.lowest cpu0) none ⟨7, 1, 0, 1000, 42⟩,
    .flush, .handle (Env.lowest cpu0) none ⟨7, 5, 0, 1000, 42⟩]

theorem ledger_iff_named_cpus :
    (∃ w, run (ledgerStep plainRodata) onlyTask7 bookedRun = some w ∧ w.insertions = 2) ∧
      ∀ w, Visits (ledgerStep plainRodata) onlyTask7 bookedRun w →
        UInt64.ofNat w.insertions = w.bss.nrUserDispatches + w.bss.nrKernelDispatches +
          w.bss.nrBounceDispatches := by
  have heval : (run (ledgerStep plainRodata) onlyTask7 bookedRun).map World.insertions = some 2 := by
    decide +kernel
  refine ⟨Option.map_eq_some_iff.mp heval, (ledger_iff plainRodata onlyTask7 rfl
    ⟨rfl, rfl, rfl⟩ bookedRun).mpr ?_⟩
  rintro w l ⟨pre, hpre, -, -⟩
  have hmem : l ∈ bookedRun := hpre.subset (List.mem_append_right pre List.mem_cons_self)
  simp only [bookedRun, List.mem_cons, List.not_mem_nil, or_false] at hmem
  rcases hmem with rfl | rfl | rfl | rfl
  · trivial
  · exact fun _ => by decide
  · trivial
  · exact fun _ => by decide

end ScxGoland
