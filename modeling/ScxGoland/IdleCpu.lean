/-
Idle CPU selection: `pick_idle_cpu` and `kick_task_cpu`.

`pickIdleCpu` tries, from the CPUs that share the most cache with the previous
one outwards, first fully idle cores and then single idle CPUs; the searches
are chained with `tryPrevCpu` and `trySearch`, whose last argument is what the
C code does when a search fails (where it succeeds, the C code jumps to
`out_put_cpumask`).

* `pickIdleCpu_cases` — after writing scratch masks, the search claims the CPU that it
  returns and changes nothing else, or fails;
* `Searching` — what both are made of, said once: a relation that holds of each
  elementary effect holds of them (`effects_rule`);
* `Searching.quiet` — they touch nothing but idle and scratch masks, and insert no task
  anywhere.
-/
import Mathlib.Logic.Relation
import ScxGoland.Effects

namespace ScxGoland

variable {m : Machine}

namespace World

def tryLookupCpuCtx (cpu : Int32) (w : World m) : Option (CpuCtx m) :=
  if h : cpu.toUInt32.toNat < m.nrCpuIds then some (w.cpuCtx ⟨cpu.toUInt32.toNat, h⟩) else none

/-- Change the context of a task, if it has one. -/
def updTaskCtx (pid : Int32) (f : TaskCtx m → TaskCtx m) (w : World m) : World m :=
  { w with taskCtx := Function.update w.taskCtx pid ((w.taskCtx pid).map f) }

end World

/-- Use the previous CPU if it is idle. -/
def tryPrevCpu (prevCpu : Int32) (w : World m) (next : World m → Int32 × World m) :
    Int32 × World m :=
  match w.scxBpfTestAndClearCpuIdle prevCpu with
  | (true, w) => (prevCpu, w)
  | (false, w) => next w

/-- Use an idle CPU of a mask; a `NULL` mask is skipped. -/
def trySearch (env : Env m) (mask : Option (CpuMask m)) (idleCore : Bool) (w : World m)
    (next : World m → Int32 × World m) : Int32 × World m :=
  match mask with
  | none => next w
  | some mask =>
    match w.scxBpfPickIdleCpu env mask idleCore with
    | (cpu, w) => if cpu < 0 then next w else (cpu, w)

/-- The searches for a single idle CPU, at the end of `pick_idle_cpu`. -/
def searchIdleCpu (env : Env m) (p : TaskStruct m) (prevCpu : Int32)
    (l2Mask l3Mask : Option (CpuMask m)) (w : World m) : Int32 × World m :=
  tryPrevCpu prevCpu w fun w =>
  trySearch env l2Mask false w fun w =>
  trySearch env l3Mask false w fun w =>
  trySearch env (some p.cpusPtr) false w fun w => (-eBUSY, w)

/-- The searches of `pick_idle_cpu`, fully idle cores first on SMT systems. -/
def searchIdle (ro : Rodata) (env : Env m) (p : TaskStruct m) (prevCpu : Int32)
    (l2Mask l3Mask : Option (CpuMask m)) (w : World m) : Int32 × World m :=
  if ro.smtEnabled then
    let searchCores := fun w =>
      trySearch env l2Mask true w fun w =>
      trySearch env l3Mask true w fun w =>
      trySearch env (some p.cpusPtr) true w fun w =>
      searchIdleCpu env p prevCpu l2Mask l3Mask w
    if bpfCpumaskTestCpu prevCpu w.idleSmt then tryPrevCpu prevCpu w searchCores
    else searchCores w
  else searchIdleCpu env p prevCpu l2Mask l3Mask w

/-- `bpf_cpumask_and` into a scratch mask, which is `NULL` for the caller when
the intersection is empty. -/
def orNull (mask : CpuMask m) : Option (CpuMask m) := if mask = ∅ then none else some mask

def pickIdleCpu (ro : Rodata) (env : Env m) (p : TaskStruct m) (prevCpu : Int32)
    (w : World m) : Int32 × World m :=
  if p.nrCpusAllowed = 1 ∨ p.migrationDisabled = true then
    tryPrevCpu prevCpu w fun w => (-eBUSY, w)
  else
    match w.taskCtx p.pid with
    | none => (-eNOENT, w)
    | some tctx =>
      match w.tryLookupCpuCtx prevCpu with
      | none => (-eNOENT, w)
      | some cctx =>
        let l2Domain := cctx.l2Cpumask.getD p.cpusPtr
        let l3Domain := cctx.l3Cpumask.getD p.cpusPtr
        if p.nrCpusAllowed = w.nrCpuIds then
          searchIdle ro env p prevCpu (some l2Domain) (some l3Domain) w
        else
          -- The intersections are computed in the task's own scratch masks.
          match tctx.l2Cpumask with
          | none => (-eNOENT, w.scxBpfError "L2 cpumask not initialized")
          | some _ =>
            let l2Mask := p.cpusPtr ∩ l2Domain
            let w := w.updTaskCtx p.pid fun t => { t with l2Cpumask := some l2Mask }
            match tctx.l3Cpumask with
            | none => (-eNOENT, w.scxBpfError "L3 cpumask not initialized")
            | some _ =>
              let l3Mask := p.cpusPtr ∩ l3Domain
              let w := w.updTaskCtx p.pid fun t => { t with l3Cpumask := some l3Mask }
              searchIdle ro env p prevCpu (orNull l2Mask) (orNull l3Mask) w

/-- `kick_task_cpu`: a CPU that the task cannot use is kicked all the same, since
it may have been claimed for the task. -/
def kickTaskCpu (env : Env m) (p : TaskStruct m) (cpu : Int32) (w : World m) : World m :=
  if bpfCpumaskTestCpu cpu p.cpusPtr then w.scxBpfKickCpu cpu .idle
  else
    match (w.scxBpfKickCpu cpu .idle).scxBpfPickIdleCpu env p.cpusPtr false with
    | (cpu, w) => if cpu < 0 then w else w.scxBpfKickCpu cpu .idle

/-! ### What a search does -/

theorem neg_eBUSY_lt : -eBUSY < 0 := by decide

theorem scxBpfPickIdleCpu_cases (env : Env m) (mask : CpuMask m) (idleCore : Bool)
    (w : World m) :
    (∃ c ∈ mask, w.scxBpfPickIdleCpu env mask idleCore = (c.toS32, w.claim c)) ∨
      w.scxBpfPickIdleCpu env mask idleCore = (-eBUSY, w) := by
  rw [World.scxBpfPickIdleCpu]
  split
  · rename_i c hc
    exact Or.inl ⟨c, (Finset.mem_inter.mp (env.pick_mem hc)).1, rfl⟩
  · exact Or.inr rfl

/-- The search has claimed the idle CPU that it returns, or has failed and changed
nothing. -/
def ClaimsOne (w : World m) (r : Int32 × World m) : Prop :=
  r = (-eBUSY, w) ∨ ∃ c : Cpu m, (c ∈ w.idle ∨ c ∈ w.idleSmt) ∧ r = (c.toS32, w.claim c)

theorem claimsOne_pickIdle (env : Env m) (mask : CpuMask m) (idleCore : Bool) (w : World m) :
    ClaimsOne w (w.scxBpfPickIdleCpu env mask idleCore) := by
  rw [World.scxBpfPickIdleCpu]
  split
  · rename_i c hc
    refine Or.inr ⟨c, ?_, rfl⟩
    have hmem := (Finset.mem_inter.mp (env.pick_mem hc)).2
    cases idleCore with
    | true => exact Or.inr hmem
    | false => exact Or.inl hmem
  · exact Or.inl rfl

section Searches

variable {w : World m} {next : World m → Int32 × World m}

theorem claimsOne_tryPrevCpu {prevCpu : Int32} (hnext : ClaimsOne w (next w)) :
    ClaimsOne w (tryPrevCpu prevCpu w next) := by
  rw [tryPrevCpu, World.scxBpfTestAndClearCpuIdle]
  split_ifs with hlt hidle
  · exact Or.inr ⟨⟨_, hlt⟩, Or.inl hidle, by rw [Cpu.toS32, ofNat_toUInt32_toNat]⟩
  · exact hnext
  · exact hnext

theorem claimsOne_trySearch {env : Env m} {mask : Option (CpuMask m)} {idleCore : Bool}
    (hnext : ClaimsOne w (next w)) : ClaimsOne w (trySearch env mask idleCore w next) := by
  cases mask with
  | none => exact hnext
  | some mask =>
    rw [trySearch]
    rcases claimsOne_pickIdle env mask idleCore w with h | ⟨c, hidle, h⟩
    · rw [h]
      dsimp only
      rw [if_pos neg_eBUSY_lt]
      exact hnext
    · rw [h]
      dsimp only
      rw [if_neg c.toS32_nonneg]
      exact Or.inr ⟨c, hidle, rfl⟩

end Searches

theorem claimsOne_searchIdleCpu (env : Env m) (p : TaskStruct m) (prevCpu : Int32)
    (l2Mask l3Mask : Option (CpuMask m)) (w : World m) :
    ClaimsOne w (searchIdleCpu env p prevCpu l2Mask l3Mask w) := by
  refine claimsOne_tryPrevCpu ?_
  refine claimsOne_trySearch ?_
  refine claimsOne_trySearch ?_
  exact claimsOne_trySearch (Or.inl rfl)

theorem claimsOne_searchIdle (ro : Rodata) (env : Env m) (p : TaskStruct m) (prevCpu : Int32)
    (l2Mask l3Mask : Option (CpuMask m)) (w : World m) :
    ClaimsOne w (searchIdle ro env p prevCpu l2Mask l3Mask w) := by
  have hcores : ClaimsOne w (trySearch env l2Mask true w fun w =>
      trySearch env l3Mask true w fun w =>
      trySearch env (some p.cpusPtr) true w fun w =>
      searchIdleCpu env p prevCpu l2Mask l3Mask w) := by
    refine claimsOne_trySearch ?_
    refine claimsOne_trySearch ?_
    exact claimsOne_trySearch (claimsOne_searchIdleCpu env p prevCpu l2Mask l3Mask w)
  rw [searchIdle]
  split_ifs
  · exact claimsOne_tryPrevCpu hcores
  · exact hcores
  · exact claimsOne_searchIdleCpu env p prevCpu l2Mask l3Mask w

/-! ### The footprint of the selection -/

/-- A task context, without the contents of its scratch masks. -/
def TaskCtx.shape (t : TaskCtx m) : UInt64 × UInt64 × UInt64 × Bool × Bool :=
  (t.startTs, t.stopTs, t.execRuntime, t.l2Cpumask.isSome, t.l3Cpumask.isSome)

/-- The context of the task, if it has one, has both scratch masks. -/
def WholeCtx (w : World m) (pid : Int32) : Prop :=
  ∀ t, w.taskCtx pid = some t → t.l2Cpumask.isSome = true ∧ t.l3Cpumask.isSome = true

/-- Every task context has both scratch masks. -/
def Whole (w : World m) : Prop := ∀ pid, WholeCtx w pid

/-- Nothing is written but the contents of scratch masks. -/
def ScratchOnly (w w' : World m) : Prop :=
  ∃ ctx, w' = { w with taskCtx := ctx } ∧
    ∀ pid, (ctx pid).map TaskCtx.shape = (w.taskCtx pid).map TaskCtx.shape

namespace ScratchOnly

theorem refl (w : World m) : ScratchOnly w w := ⟨w.taskCtx, rfl, fun _ => rfl⟩

theorem trans {w₁ w₂ w₃ : World m} (h : ScratchOnly w₁ w₂) (h' : ScratchOnly w₂ w₃) :
    ScratchOnly w₁ w₃ := by
  obtain ⟨ctx, rfl, hshape⟩ := h
  obtain ⟨ctx', rfl, hshape'⟩ := h'
  exact ⟨ctx', rfl, fun pid => (hshape' pid).trans (hshape pid)⟩

theorem updTaskCtx (w : World m) (pid : Int32) {f : TaskCtx m → TaskCtx m}
    (hf : ∀ t, w.taskCtx pid = some t → (f t).shape = t.shape) :
    ScratchOnly w (w.updTaskCtx pid f) := by
  refine ⟨_, rfl, fun q => ?_⟩
  by_cases hq : q = pid
  · subst hq
    rw [Function.update_self]
    rcases hctx : w.taskCtx q with _ | t
    · rfl
    · exact congrArg some (hf t hctx)
  · rw [Function.update_of_ne hq]

end ScratchOnly

/-- `pick_idle_cpu` writes the scratch masks where it needs them, and then searches, or
gives up without a context, or complains about a missing mask. -/
theorem pickIdleCpu_cases (ro : Rodata) (env : Env m) (p : TaskStruct m) (prevCpu : Int32)
    (w : World m) :
    ∃ w₁, ScratchOnly w w₁ ∧ (ClaimsOne w₁ (pickIdleCpu ro env p prevCpu w) ∨
      pickIdleCpu ro env p prevCpu w = (-eNOENT, w₁) ∨
      ∃ msg ∈ ["L2 cpumask not initialized", "L3 cpumask not initialized"],
        ¬ WholeCtx w₁ p.pid ∧
          pickIdleCpu ro env p prevCpu w = (-eNOENT, w₁.scxBpfError msg)) := by
  rw [pickIdleCpu]
  by_cases hpinned : p.nrCpusAllowed = 1 ∨ p.migrationDisabled = true
  · rw [if_pos hpinned]
    exact ⟨w, .refl w, Or.inl (claimsOne_tryPrevCpu (Or.inl rfl))⟩
  rw [if_neg hpinned]
  rcases hctx : w.taskCtx p.pid with _ | tctx
  · exact ⟨w, .refl w, Or.inr (Or.inl rfl)⟩
  rcases w.tryLookupCpuCtx prevCpu with _ | cctx
  · exact ⟨w, .refl w, Or.inr (Or.inl rfl)⟩
  dsimp only
  by_cases hall : p.nrCpusAllowed = w.nrCpuIds
  · rw [if_pos hall]
    exact ⟨w, .refl w, Or.inl (claimsOne_searchIdle ro env p prevCpu _ _ w)⟩
  rw [if_neg hall]
  -- the scratch masks are written only where they exist
  rcases hl2 : tctx.l2Cpumask with _ | l2
  · refine ⟨w, .refl w, Or.inr (Or.inr ⟨_, List.mem_cons_self, fun hwhole => ?_, rfl⟩)⟩
    have hmask := (hwhole tctx hctx).1
    rw [hl2] at hmask
    exact absurd hmask (by simp)
  have h2 : ScratchOnly w (w.updTaskCtx p.pid fun t =>
      { t with l2Cpumask := some (p.cpusPtr ∩ cctx.l2Cpumask.getD p.cpusPtr) }) := by
    refine .updTaskCtx w p.pid fun t ht => ?_
    obtain rfl := Option.some_inj.mp (hctx.symm.trans ht)
    simp [TaskCtx.shape, hl2]
  have hctx' : (w.updTaskCtx p.pid fun t =>
      { t with l2Cpumask := some (p.cpusPtr ∩ cctx.l2Cpumask.getD p.cpusPtr) }).taskCtx p.pid =
        some { tctx with
          l2Cpumask := some (p.cpusPtr ∩ cctx.l2Cpumask.getD p.cpusPtr) } := by
    rw [World.updTaskCtx]
    dsimp only
    rw [Function.update_self, hctx, Option.map_some]
  rcases hl3 : tctx.l3Cpumask with _ | l3
  · refine ⟨_, h2, Or.inr (Or.inr ⟨_, List.mem_cons_of_mem _ List.mem_cons_self,
      fun hwhole => ?_, rfl⟩)⟩
    have hmask := (hwhole _ hctx').2
    rw [hl3] at hmask
    exact absurd hmask (by simp)
  · refine ⟨_, h2.trans (.updTaskCtx _ p.pid fun t ht => ?_),
      Or.inl (claimsOne_searchIdle ro env p prevCpu _ _ _)⟩
    obtain rfl := Option.some_inj.mp (hctx'.symm.trans ht)
    simp [TaskCtx.shape, hl3]

/-- Every CPU has a queue, and every task context its scratch masks. -/
def Equipped (w : World m) : Prop := m.nrCpuIds ≤ maxCpus ∧ Whole w

/-- The elementary effects of `pick_idle_cpu`, `kick_task_cpu` and `cpu_to_dsq`. -/
inductive SearchEffect : World m → World m → Prop where
  | claim (w : World m) (c : Cpu m) : SearchEffect w (w.claim c)
  | kick (w : World m) (cpu : Int32) : SearchEffect w (w.scxBpfKickCpu cpu .idle)
  | scratch {w w' : World m} (h : ScratchOnly w w') : SearchEffect w w'
  | error (w : World m) (msg : String) (h : ¬ Equipped w) : SearchEffect w (w.scxBpfError msg)

/-- Any number of them. -/
def Searching : World m → World m → Prop := Relation.ReflTransGen SearchEffect

/-- A transitive relation that holds of each effect holds of any number of them. -/
theorem effects_rule {E R : World m → World m → Prop} (hrefl : ∀ w, R w w)
    (htrans : ∀ {w₁ w₂ w₃}, R w₁ w₂ → R w₂ w₃ → R w₁ w₃)
    (heffect : ∀ {w w'}, E w w' → R w w') {w w' : World m} (h : Relation.ReflTransGen E w w') :
    R w w' := by
  induction h with
  | refl => exact hrefl w
  | tail _ hlast ih => exact htrans ih (heffect hlast)

namespace Searching

theorem refl (w : World m) : Searching w w := Relation.ReflTransGen.refl

theorem one {w w' : World m} (h : SearchEffect w w') : Searching w w' :=
  Relation.ReflTransGen.single h

theorem trans {w₁ w₂ w₃ : World m} (h : Searching w₁ w₂) (h' : Searching w₂ w₃) :
    Searching w₁ w₃ := Relation.ReflTransGen.trans h h'

theorem andThen {w₁ w₂ w₃ : World m} (h : Searching w₁ w₂) (h' : SearchEffect w₂ w₃) :
    Searching w₁ w₃ := Relation.ReflTransGen.tail h h'

theorem of_claimsOne {w : World m} {r : Int32 × World m} (h : ClaimsOne w r) :
    Searching w r.2 := by
  rcases h with rfl | ⟨c, -, rfl⟩
  · exact refl w
  · exact one (.claim w c)

theorem pickIdleCpu (ro : Rodata) (env : Env m) (p : TaskStruct m) (prevCpu : Int32)
    (w : World m) : Searching w (pickIdleCpu ro env p prevCpu w).2 := by
  obtain ⟨w₁, hscratch, h | h | ⟨msg, -, hwhole, h⟩⟩ := pickIdleCpu_cases ro env p prevCpu w
  · exact (one (.scratch hscratch)).trans (of_claimsOne h)
  · rw [h]
    exact one (.scratch hscratch)
  · rw [h]
    exact (one (.scratch hscratch)).andThen (.error w₁ msg fun hequip => hwhole (hequip.2 p.pid))

theorem pickIdle (w : World m) (env : Env m) (mask : CpuMask m) (idleCore : Bool) :
    Searching w (w.scxBpfPickIdleCpu env mask idleCore).2 :=
  of_claimsOne (claimsOne_pickIdle env mask idleCore w)

/-- `cpu_to_dsq` has something to complain about only with more CPUs than queues. -/
theorem cpuToDsq (w : World m) (c : Cpu m) : Searching w (w.cpuToDsq c.toS32).2 := by
  by_cases hc : c.val < maxCpus
  · rw [Cpu.toS32, cpuToDsq_of_lt hc]
    exact refl w
  · rw [World.cpuToDsq]
    split_ifs
    · exact one (.error w _ fun hequip => hc (lt_of_lt_of_le c.isLt hequip.1))
    · exact refl w

end Searching

/-- `kick_task_cpu` kicks the CPU given to it, and claims and kicks an idle one as well if
the task cannot use the first. -/
theorem kickTaskCpu_cases (env : Env m) (p : TaskStruct m) (cpu : Int32) (w : World m) :
    (kickTaskCpu env p cpu w = w.scxBpfKickCpu cpu .idle ∧
      (bpfCpumaskTestCpu cpu p.cpusPtr = true ∨ p.cpusPtr ∩ w.idle = ∅)) ∨
    ∃ c ∈ p.cpusPtr, kickTaskCpu env p cpu w =
      ((w.scxBpfKickCpu cpu .idle).claim c).scxBpfKickCpu c.toS32 .idle := by
  have hidle : (w.scxBpfKickCpu cpu .idle).idle = w.idle := rfl
  rw [kickTaskCpu, World.scxBpfPickIdleCpu, if_neg Bool.false_ne_true, hidle]
  split_ifs with hcpu
  · exact Or.inl ⟨rfl, Or.inl hcpu⟩
  rcases hpick : env.pick (p.cpusPtr ∩ w.idle) with _ | c
  · -- nobody to kick
    have hnone : p.cpusPtr ∩ w.idle = ∅ := by
      by_contra hne
      have hsome := env.pick_isSome (Finset.nonempty_iff_ne_empty.mpr hne)
      rw [hpick] at hsome
      exact absurd hsome (by simp)
    dsimp only
    rw [if_pos neg_eBUSY_lt]
    exact Or.inl ⟨rfl, Or.inr hnone⟩
  · dsimp only
    rw [if_neg c.toS32_nonneg]
    exact Or.inr ⟨c, (Finset.mem_inter.mp (env.pick_mem hpick)).1, rfl⟩

theorem Searching.kickTaskCpu (env : Env m) (p : TaskStruct m) (cpu : Int32) (w : World m) :
    Searching w (kickTaskCpu env p cpu w) := by
  have hkick := Searching.one (.kick w cpu)
  rcases kickTaskCpu_cases env p cpu w with ⟨h, -⟩ | ⟨c, -, h⟩
  · rw [h]
    exact hkick
  · rw [h]
    exact (hkick.andThen (.claim _ c)).andThen (.kick _ _)

/-- The selection touches nothing but idle and scratch masks. -/
theorem Searching.quiet {w w' : World m} (h : Searching w w') : Quiet w w' := by
  refine effects_rule Quiet.refl Quiet.trans (fun heffect => ?_) h
  cases heffect with
  | claim c => exact Quiet.claim _ c
  | kick cpu => exact Quiet.kick _ cpu .idle
  | scratch hscratch =>
    obtain ⟨ctx, rfl, -⟩ := hscratch
    exact ⟨rfl, rfl, rfl, rfl, rfl, rfl, rfl, rfl, rfl, [], rfl, by simp⟩
  | error msg => exact Quiet.emit _ rfl

theorem quiet_pickIdleCpu (ro : Rodata) (env : Env m) (p : TaskStruct m) (prevCpu : Int32)
    (w : World m) : Quiet w (pickIdleCpu ro env p prevCpu w).2 :=
  (Searching.pickIdleCpu ro env p prevCpu w).quiet

theorem quiet_kickTaskCpu (env : Env m) (p : TaskStruct m) (cpu : Int32) (w : World m) :
    Quiet w (kickTaskCpu env p cpu w) := (Searching.kickTaskCpu env p cpu w).quiet

end ScxGoland
