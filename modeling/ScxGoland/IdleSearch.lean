/-
The order in which `pick_idle_cpu` looks for an idle CPU.

The search is described by a list of candidate sets (`idleTiers`): with SMT the
previous CPU and the two cache domains among the fully idle cores, then the
same among all idle CPUs.

* `TakesFirst tiers w r` — `r` is the result of claiming a CPU of the first
  nonempty set of `tiers`;
* `pickIdleCpu_takesFirst` — `pick_idle_cpu` takes a CPU of the first nonempty
  set of `idleTiers`.  The shortcut for tasks that may run anywhere does not
  intersect the cache domains with the affinity, but such an affinity is all of
  `[0, nr_cpu_ids)`.
-/
import Mathlib.Data.Fintype.Card
import ScxGoland.IdleCpu

namespace ScxGoland

variable {m : Machine}

/-! ### The first nonempty set -/

/-- A CPU of the first nonempty set of the list has been claimed; if all are
empty, the result is `-EBUSY` and nothing has changed. -/
def TakesFirst : List (CpuMask m) → World m → Int32 × World m → Prop
  | [], w, r => r = (-eBUSY, w)
  | tier :: tiers, w, r =>
    (∃ c ∈ tier, r = (c.toS32, w.claim c)) ∨ (tier = ∅ ∧ TakesFirst tiers w r)

namespace TakesFirst

variable {tiers : List (CpuMask m)} {w : World m} {r : Int32 × World m}

/-- The search either fails and changes nothing, or claims the CPU it returns. -/
theorem cases (h : TakesFirst tiers w r) :
    (r = (-eBUSY, w) ∧ ∀ tier ∈ tiers, tier = ∅) ∨
      ∃ tier ∈ tiers, ∃ c ∈ tier, r = (c.toS32, w.claim c) := by
  induction tiers with
  | nil => exact Or.inl ⟨h, by simp⟩
  | cons tier tiers ih =>
    rcases h with ⟨c, hc, hr⟩ | ⟨hempty, h⟩
    · exact Or.inr ⟨tier, List.mem_cons_self, c, hc, hr⟩
    · rcases ih h with ⟨hr, hall⟩ | ⟨tier', htier', hex⟩
      · refine Or.inl ⟨hr, fun tier' htier' => ?_⟩
        rcases List.mem_cons.mp htier' with rfl | htier'
        · exact hempty
        · exact hall tier' htier'
      · exact Or.inr ⟨tier', List.mem_cons_of_mem _ htier', hex⟩

theorem eq_busy_iff (h : TakesFirst tiers w r) : r.1 = -eBUSY ↔ ∀ tier ∈ tiers, tier = ∅ := by
  rcases h.cases with ⟨rfl, hall⟩ | ⟨tier, htier, c, hc, rfl⟩
  · exact ⟨fun _ => hall, fun _ => rfl⟩
  · refine ⟨fun hbusy => absurd hbusy (c.toS32_ne_neg (by decide)), fun hall => ?_⟩
    rw [hall tier htier] at hc
    exact absurd hc (Finset.notMem_empty c)

theorem of_cpu (h : TakesFirst tiers w r) (hidle : ∀ tier ∈ tiers, tier ⊆ w.idle) {c : Cpu m}
    (hc : r.1 = c.toS32) : c ∈ w.idle ∧ r.2 = w.claim c := by
  rcases h.cases with ⟨rfl, -⟩ | ⟨tier, htier, c', hc', rfl⟩
  · exact absurd hc.symm (c.toS32_ne_neg (show -eBUSY < 0 by decide))
  · obtain rfl := toS32_injective hc
    exact ⟨hidle tier htier hc', rfl⟩

theorem of_neg (h : TakesFirst tiers w r) (hneg : r.1 < 0) : r = (-eBUSY, w) := by
  rcases h.cases with ⟨rfl, -⟩ | ⟨tier, htier, c, hc, rfl⟩
  · rfl
  · exact absurd hneg c.toS32_nonneg

end TakesFirst

/-- The set of the CPU that an `s32` numbers, if there is one. -/
def cpuMaskOf (m : Machine) (cpu : Int32) : CpuMask m := Finset.univ.filter fun c => c.toS32 = cpu

/-! ### One search -/

section Search

variable {w : World m} {tiers : List (CpuMask m)} {next : World m → Int32 × World m}

theorem mem_cpuMaskOf {c : Cpu m} {cpu : Int32} : c ∈ cpuMaskOf m cpu ↔ c.toS32 = cpu := by
  simp [cpuMaskOf]

theorem testAndClear_toS32 (c : Cpu m) (w : World m) :
    w.scxBpfTestAndClearCpuIdle c.toS32 = if c ∈ w.idle then (true, w.claim c) else (false, w) := by
  have hlt : c.toS32.toUInt32.toNat < m.nrCpuIds := by
    rw [c.toNat_toS32]
    exact c.isLt
  have hc : (⟨c.toS32.toUInt32.toNat, hlt⟩ : Cpu m) = c := Fin.ext c.toNat_toS32
  rw [World.scxBpfTestAndClearCpuIdle, dif_pos hlt, hc]

theorem takesFirst_tryPrevCpu {prevCpu : Int32} (hnext : TakesFirst tiers w (next w)) :
    TakesFirst ((cpuMaskOf m prevCpu ∩ w.idle) :: tiers) w (tryPrevCpu prevCpu w next) := by
  rw [tryPrevCpu]
  by_cases hprev : ∃ c : Cpu m, c.toS32 = prevCpu
  · obtain ⟨c, rfl⟩ := hprev
    rw [testAndClear_toS32]
    by_cases hidle : c ∈ w.idle
    · rw [if_pos hidle]
      exact Or.inl ⟨c, Finset.mem_inter.mpr ⟨mem_cpuMaskOf.mpr rfl, hidle⟩, rfl⟩
    · rw [if_neg hidle]
      refine Or.inr ⟨?_, hnext⟩
      refine Finset.eq_empty_of_forall_notMem fun c' hc' => hidle ?_
      obtain ⟨hnum, hmem⟩ := Finset.mem_inter.mp hc'
      exact toS32_injective (mem_cpuMaskOf.mp hnum) ▸ hmem
  · have hlt : ¬ prevCpu.toUInt32.toNat < m.nrCpuIds := fun hlt =>
      hprev ⟨⟨_, hlt⟩, ofNat_toUInt32_toNat prevCpu⟩
    rw [World.scxBpfTestAndClearCpuIdle, dif_neg hlt]
    refine Or.inr ⟨?_, hnext⟩
    refine Finset.eq_empty_of_forall_notMem fun c' hc' => hprev ⟨c', ?_⟩
    exact mem_cpuMaskOf.mp (Finset.mem_inter.mp hc').1

/-- A `NULL` mask stands for the empty one. -/
theorem takesFirst_trySearch {env : Env m} {mask : Option (CpuMask m)} {idleCore : Bool}
    {tier : CpuMask m} (htier : mask.getD ∅ ∩ (if idleCore then w.idleSmt else w.idle) = tier)
    (hnext : TakesFirst tiers w (next w)) :
    TakesFirst (tier :: tiers) w (trySearch env mask idleCore w next) := by
  subst htier
  cases mask with
  | none => exact Or.inr ⟨Finset.empty_inter _, hnext⟩
  | some mask =>
    rw [trySearch, World.scxBpfPickIdleCpu, Option.getD_some]
    rcases hpick : env.pick (mask ∩ if idleCore then w.idleSmt else w.idle) with _ | c
    · have hneg : (-eBUSY : Int32) < 0 := by decide
      dsimp only
      rw [if_pos hneg]
      refine Or.inr ⟨?_, hnext⟩
      by_contra hne
      have hsome := env.pick_isSome (Finset.nonempty_iff_ne_empty.mpr hne)
      rw [hpick] at hsome
      exact absurd hsome (by simp)
    · dsimp only
      rw [if_neg c.toS32_nonneg]
      exact Or.inl ⟨c, env.pick_mem hpick, rfl⟩

end Search

@[simp] theorem getD_orNull (mask : CpuMask m) : (orNull mask).getD ∅ = mask := by
  rw [orNull]
  split_ifs with hempty
  · exact hempty.symm
  · rfl

/-! ### All searches -/

/-- The candidate sets of `pick_idle_cpu`, in order: `allowed` is the task's
affinity, `l2` and `l3` are the cache domains of the previous CPU, `prev` is
the set of the previous CPU alone. -/
def idleTiers (smt : Bool) (prev allowed l2 l3 idleSmt idle : CpuMask m) : List (CpuMask m) :=
  (if smt then [prev ∩ idleSmt, allowed ∩ l2 ∩ idleSmt, allowed ∩ l3 ∩ idleSmt,
    allowed ∩ idleSmt] else []) ++
  [prev ∩ idle, allowed ∩ l2 ∩ idle, allowed ∩ l3 ∩ idle, allowed ∩ idle]

/-- All candidates are idle CPUs. -/
theorem subset_idle_of_mem_idleTiers {smt : Bool} {prev allowed l2 l3 idleSmt idle : CpuMask m}
    (hsmt : idleSmt ⊆ idle) :
    ∀ tier ∈ idleTiers smt prev allowed l2 l3 idleSmt idle, tier ⊆ idle := by
  have hcore : ∀ mask : CpuMask m, mask ∩ idleSmt ⊆ idle := fun mask =>
    Finset.inter_subset_right.trans hsmt
  have hcpu : ∀ mask : CpuMask m, mask ∩ idle ⊆ idle := fun mask => Finset.inter_subset_right
  intro tier htier
  rcases List.mem_append.mp htier with htier | htier
  · split_ifs at htier
    · simp only [List.mem_cons, List.not_mem_nil, or_false] at htier
      rcases htier with rfl | rfl | rfl | rfl <;> exact hcore _
    · exact absurd htier List.not_mem_nil
  · simp only [List.mem_cons, List.not_mem_nil, or_false] at htier
    rcases htier with rfl | rfl | rfl | rfl <;> exact hcpu _

/-- There is no candidate iff neither the previous CPU nor an allowed one is
idle. -/
theorem idleTiers_empty_iff {smt : Bool} {prev allowed l2 l3 idleSmt idle : CpuMask m}
    (hsmt : idleSmt ⊆ idle) :
    (∀ tier ∈ idleTiers smt prev allowed l2 l3 idleSmt idle, tier = ∅) ↔
      prev ∩ idle = ∅ ∧ allowed ∩ idle = ∅ := by
  constructor
  · intro h
    exact ⟨h _ (List.mem_append_right _ (by simp)), h _ (List.mem_append_right _ (by simp))⟩
  · rintro ⟨hprev, hallowed⟩
    -- every tier is part of one of the two sets
    have hpart : ∀ tier : CpuMask m, tier ⊆ prev ∩ idle ∨ tier ⊆ allowed ∩ idle → tier = ∅ := by
      rintro tier (h | h)
      · rw [hprev] at h
        exact Finset.subset_empty.mp h
      · rw [hallowed] at h
        exact Finset.subset_empty.mp h
    intro tier htier
    refine hpart tier ?_
    rcases List.mem_append.mp htier with htier | htier
    · split_ifs at htier
      · simp only [List.mem_cons, List.not_mem_nil, or_false] at htier
        rcases htier with rfl | rfl | rfl | rfl
        · exact Or.inl (Finset.inter_subset_inter_left hsmt)
        · exact Or.inr (Finset.inter_subset_inter Finset.inter_subset_left hsmt)
        · exact Or.inr (Finset.inter_subset_inter Finset.inter_subset_left hsmt)
        · exact Or.inr (Finset.inter_subset_inter_left hsmt)
      · exact absurd htier List.not_mem_nil
    · simp only [List.mem_cons, List.not_mem_nil, or_false] at htier
      rcases htier with rfl | rfl | rfl | rfl
      · exact Or.inl (Finset.Subset.refl _)
      · exact Or.inr (Finset.inter_subset_inter_right Finset.inter_subset_left)
      · exact Or.inr (Finset.inter_subset_inter_right Finset.inter_subset_left)
      · exact Or.inr (Finset.Subset.refl _)

section Searches

variable {ro : Rodata} {env : Env m} {p : TaskStruct m} {prevCpu : Int32}
  {l2 l3 : Option (CpuMask m)}

theorem takesFirst_searchIdleCpu (w : World m) {d2 d3 : CpuMask m}
    (hl2 : l2.getD ∅ = p.cpusPtr ∩ d2) (hl3 : l3.getD ∅ = p.cpusPtr ∩ d3) :
    TakesFirst [cpuMaskOf m prevCpu ∩ w.idle, p.cpusPtr ∩ d2 ∩ w.idle, p.cpusPtr ∩ d3 ∩ w.idle,
      p.cpusPtr ∩ w.idle] w (searchIdleCpu env p prevCpu l2 l3 w) := by
  have hall : TakesFirst [p.cpusPtr ∩ w.idle] w
      (trySearch env (some p.cpusPtr) false w fun w => (-eBUSY, w)) :=
    takesFirst_trySearch rfl rfl
  rw [searchIdleCpu]
  refine takesFirst_tryPrevCpu (takesFirst_trySearch ?_ (takesFirst_trySearch ?_ hall))
  · rw [hl2]
    rfl
  · rw [hl3]
    rfl

/-- The previous CPU is tried among the fully idle cores only if it is one; it is
then idle, and the search ends. -/
theorem takesFirst_searchIdle {w : World m} (hsmt : w.idleSmt ⊆ w.idle) {d2 d3 : CpuMask m}
    (hl2 : l2.getD ∅ = p.cpusPtr ∩ d2) (hl3 : l3.getD ∅ = p.cpusPtr ∩ d3) :
    TakesFirst (idleTiers ro.smtEnabled (cpuMaskOf m prevCpu) p.cpusPtr d2 d3 w.idleSmt w.idle) w
      (searchIdle ro env p prevCpu l2 l3 w) := by
  have hcpu : TakesFirst [cpuMaskOf m prevCpu ∩ w.idle, p.cpusPtr ∩ d2 ∩ w.idle,
      p.cpusPtr ∩ d3 ∩ w.idle, p.cpusPtr ∩ w.idle] w (searchIdleCpu env p prevCpu l2 l3 w) :=
    takesFirst_searchIdleCpu w hl2 hl3
  rw [searchIdle, idleTiers]
  by_cases hon : ro.smtEnabled = true
  · have hall : TakesFirst (p.cpusPtr ∩ w.idleSmt :: _) w
        (trySearch env (some p.cpusPtr) true w fun w => searchIdleCpu env p prevCpu l2 l3 w) :=
      takesFirst_trySearch rfl hcpu
    have hcores : TakesFirst (p.cpusPtr ∩ d2 ∩ w.idleSmt :: p.cpusPtr ∩ d3 ∩ w.idleSmt :: _) w
        (trySearch env l2 true w fun w => trySearch env l3 true w fun w =>
          trySearch env (some p.cpusPtr) true w fun w => searchIdleCpu env p prevCpu l2 l3 w) :=
      takesFirst_trySearch (by rw [hl2]; rfl) (takesFirst_trySearch (by rw [hl3]; rfl) hall)
    rw [if_pos hon, if_pos hon]
    dsimp only
    by_cases htest : bpfCpumaskTestCpu prevCpu w.idleSmt = true
    · obtain ⟨c, hc, rfl⟩ := exists_cpu_of_test htest
      rw [if_pos htest, tryPrevCpu, testAndClear_toS32, if_pos (hsmt hc)]
      exact Or.inl ⟨c, Finset.mem_inter.mpr ⟨mem_cpuMaskOf.mpr rfl, hc⟩, rfl⟩
    · rw [if_neg htest]
      refine Or.inr ⟨?_, hcores⟩
      refine Finset.eq_empty_of_forall_notMem fun c hc => htest ?_
      obtain ⟨hnum, hmem⟩ := Finset.mem_inter.mp hc
      rw [← mem_cpuMaskOf.mp hnum, testCpu_toS32]
      exact decide_eq_true hmem
  · rw [if_neg hon, if_neg hon]
    exact hcpu

end Searches

/-! ### The whole selection -/

/-- The CPUs below the program's `nr_cpu_ids`. -/
def World.possible (w : World m) : CpuMask m := Finset.univ.filter fun c => c.val < w.nrCpuIds

/-- An affinity of `nr_cpu_ids` CPUs has them all. -/
theorem eq_possible_of_card {w : World m} {allowed : CpuMask m} (hsub : allowed ⊆ w.possible)
    (hcard : allowed.card = w.nrCpuIds) : allowed = w.possible := by
  refine Finset.eq_of_subset_of_card_le hsub ?_
  have himage : (w.possible.image Fin.val).card = w.possible.card :=
    Finset.card_image_of_injective _ Fin.val_injective
  have hrange : w.possible.image Fin.val ⊆ Finset.range w.nrCpuIds := by
    intro n hn
    obtain ⟨c, hc, rfl⟩ := Finset.mem_image.mp hn
    exact Finset.mem_range.mpr (Finset.mem_filter.mp hc).2
  have hle := Finset.card_le_card hrange
  rw [himage, Finset.card_range] at hle
  exact hcard ▸ hle

/-- A migratable task with its contexts, in a consistent state of the idle masks;
`cctx` is the context of the previous CPU. -/
structure Searchable (p : TaskStruct m) (prevCpu : Int32) (w : World m) (cctx : CpuCtx m) :
    Prop where
  allowed : p.cpusPtr ⊆ w.possible
  nrCpusAllowed : p.nrCpusAllowed = p.cpusPtr.card
  many : p.nrCpusAllowed ≠ 1
  migratable : p.migrationDisabled = false
  idleSmt : w.idleSmt ⊆ w.idle
  taskCtx : ∃ tctx, w.taskCtx p.pid = some tctx ∧ tctx.l2Cpumask.isSome ∧ tctx.l3Cpumask.isSome
  cpuCtx : w.tryLookupCpuCtx prevCpu = some cctx
  l2 : ∀ mask, cctx.l2Cpumask = some mask → mask ⊆ w.possible
  l3 : ∀ mask, cctx.l3Cpumask = some mask → mask ⊆ w.possible

section Selection

variable (ro : Rodata) (env : Env m) {p : TaskStruct m} {prevCpu : Int32} {w : World m}
  {cctx : CpuCtx m}

theorem pickIdleCpu_takesFirst (h : Searchable p prevCpu w cctx) :
    ∃ ctx, TakesFirst (idleTiers ro.smtEnabled (cpuMaskOf m prevCpu) p.cpusPtr
      (cctx.l2Cpumask.getD p.cpusPtr) (cctx.l3Cpumask.getD p.cpusPtr) w.idleSmt w.idle)
      { w with taskCtx := ctx } (pickIdleCpu ro env p prevCpu w) := by
  obtain ⟨tctx, htctx, hscratch2, hscratch3⟩ := h.taskCtx
  have hmany : ¬ (p.nrCpusAllowed = 1 ∨ p.migrationDisabled = true) := by
    rw [h.migratable]
    simpa using h.many
  rw [pickIdleCpu, if_neg hmany, htctx, h.cpuCtx]
  dsimp only
  by_cases hshort : p.nrCpusAllowed = w.nrCpuIds
  · rw [if_pos hshort]
    have hall : p.cpusPtr = w.possible :=
      eq_possible_of_card h.allowed (h.nrCpusAllowed ▸ hshort)
    have hdom : ∀ mask : Option (CpuMask m), (∀ mask', mask = some mask' → mask' ⊆ w.possible) →
        mask.getD p.cpusPtr = p.cpusPtr ∩ mask.getD p.cpusPtr := by
      intro mask hmask
      refine (Finset.inter_eq_right.mpr ?_).symm
      cases mask with
      | none => exact Finset.Subset.refl _
      | some mask => exact hall ▸ hmask mask rfl
    exact ⟨w.taskCtx, takesFirst_searchIdle h.idleSmt (hdom _ h.l2) (hdom _ h.l3)⟩
  · rw [if_neg hshort]
    obtain ⟨scratch2, hs2⟩ := Option.isSome_iff_exists.mp hscratch2
    obtain ⟨scratch3, hs3⟩ := Option.isSome_iff_exists.mp hscratch3
    rw [hs2, hs3]
    dsimp only
    -- the scratch masks are all that has changed
    generalize hw' : World.updTaskCtx p.pid _ (World.updTaskCtx p.pid _ w) = w'
    have hsame : w' = { w with taskCtx := w'.taskCtx } := by
      subst hw'
      rfl
    refine ⟨w'.taskCtx, ?_⟩
    rw [← hsame]
    have hidle : w'.idle = w.idle := by rw [hsame]
    have hidleSmt : w'.idleSmt = w.idleSmt := by rw [hsame]
    rw [← hidle, ← hidleSmt]
    refine takesFirst_searchIdle ?_ (getD_orNull _) (getD_orNull _)
    rw [hidle, hidleSmt]
    exact h.idleSmt

/-- **`pick_idle_cpu` follows its order of preference.**  The CPU it returns is
one of the first nonempty set of `idleTiers`; it is claimed, and no other CPU
is.  The result is `-EBUSY` exactly when neither the previous CPU nor an
allowed one is idle, and a negative result changes no idle state. -/
theorem pick_idle_cpu_preference_order (h : Searchable p prevCpu w cctx) :
    let r := pickIdleCpu ro env p prevCpu w
    (∃ ctx, TakesFirst (idleTiers ro.smtEnabled (cpuMaskOf m prevCpu) p.cpusPtr
      (cctx.l2Cpumask.getD p.cpusPtr) (cctx.l3Cpumask.getD p.cpusPtr) w.idleSmt w.idle)
      { w with taskCtx := ctx } r) ∧
    (r.1 = -eBUSY ↔ cpuMaskOf m prevCpu ∩ w.idle = ∅ ∧ p.cpusPtr ∩ w.idle = ∅) ∧
    (∀ c : Cpu m, r.1 = c.toS32 → c ∈ w.idle ∧ r.2.idle = w.idle.erase c ∧
      r.2.log = .claimed c.toS32 :: w.log) ∧
    (r.1 < 0 → r.1 = -eBUSY ∧ r.2.idle = w.idle ∧ r.2.idleSmt = w.idleSmt ∧ r.2.log = w.log) := by
  intro r
  obtain ⟨ctx, hfirst⟩ := pickIdleCpu_takesFirst ro env h
  refine ⟨⟨ctx, hfirst⟩, ?_, fun c hc => ?_, fun hneg => ?_⟩
  · rw [hfirst.eq_busy_iff, idleTiers_empty_iff h.idleSmt]
  · obtain ⟨hidle, hclaim⟩ := hfirst.of_cpu (subset_idle_of_mem_idleTiers h.idleSmt) hc
    rw [show r.2 = _ from hclaim]
    exact ⟨hidle, rfl, rfl⟩
  · rw [show r = _ from hfirst.of_neg hneg]
    exact ⟨rfl, rfl, rfl, rfl⟩

end Selection

/-- A system with SMT and the built-in idle selection. -/
def smtRodata : Rodata where
  userschedPid := 1
  khugepagedPid := 0
  earlyProcessing := false
  builtinIdle := true
  smtEnabled := true
  defaultSlice := scxSliceDfl
  isEnqCpuSelected _ := true
  timeDelta _ _ := 0

/-- Task 7 may run on both CPUs.  CPU 0, its last one, is busy, and the core of
CPU 1 is not fully idle. -/
def halfIdleWorld : World twoCpus :=
  { World.loaded twoCpus 1 with
    tasks := (TaskTable.empty twoCpus).set (plainTask 7)
    taskCtx := fun _ => some ⟨some ∅, some ∅, 0, 0, 0⟩
    cpuCtx := fun _ => ⟨some {cpu0}, some {cpu0, cpu1}⟩
    idle := {cpu1} }

/-- The L2 domain of CPU 0 has no idle CPU, its L3 domain has one. -/
theorem pick_idle_cpu_preference_order_l3 :
    (pickIdleCpu smtRodata (Env.lowest cpu0) (plainTask 7) 0 halfIdleWorld).1 = cpu1.toS32 ∧
      (pickIdleCpu smtRodata (Env.lowest cpu0) (plainTask 7) 0 halfIdleWorld).2.idle = ∅ := by
  have hstate : Searchable (plainTask 7) 0 halfIdleWorld ⟨some {cpu0}, some {cpu0, cpu1}⟩ :=
    ⟨by decide, rfl, by decide, rfl, by decide, ⟨_, rfl, rfl, rfl⟩, rfl, by simp; decide,
      by simp; decide⟩
  obtain ⟨-, -, hclaim, -⟩ := pick_idle_cpu_preference_order smtRodata (Env.lowest cpu0) hstate
  have hcpu : (pickIdleCpu smtRodata (Env.lowest cpu0) (plainTask 7) 0 halfIdleWorld).1 =
      cpu1.toS32 := by decide
  refine ⟨hcpu, ?_⟩
  rw [(hclaim cpu1 hcpu).2.1]
  decide

end ScxGoland
