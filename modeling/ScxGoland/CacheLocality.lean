/-
From the cache lists of the kernel to the CPU that is picked.

`InitCacheDomains` reads the lists of the CPUs that share a cache before the scheduler
is attached; no callback changes the masks that it has set up, and every later
`pick_idle_cpu` goes by them.

* `cacheDistance` — how far apart two CPUs are, by the lists;
* `TakesFirst.least` — a search through sets of rising cost finds a cheapest member;
* `nearest_idle_cpu_picked` — in every run, the CPU picked is an idle one that is as
  near as any other; with SMT, CPUs of idle cores come first.
-/
import ScxGoland.Ejection
import ScxGoland.IdleSearch
import ScxGoland.Topology

open Runs

namespace ScxGoland

variable {m : Machine}

/-! ### Searching in order of cost -/

/-- The sets list the candidates by their cost, from `n` on; a set may have cheaper
members as well. -/
def ByCost (f : Cpu m → ℕ) (cand : CpuMask m) : ℕ → List (CpuMask m) → Prop
  | n, [] => ∀ c ∈ cand, f c < n
  | n, tier :: tiers => (∀ c ∈ tier, c ∈ cand ∧ f c ≤ n) ∧ (∀ c ∈ cand, f c = n → c ∈ tier) ∧
    ByCost f cand (n + 1) tiers

/-- The search fails only if there is no candidate, and else takes a cheapest one. -/
theorem TakesFirst.least {f : Cpu m → ℕ} {cand : CpuMask m} {tiers : List (CpuMask m)}
    {w : World m} {r : Int32 × World m} {n : ℕ} (h : TakesFirst tiers w r)
    (htiers : ByCost f cand n tiers) (hmin : ∀ c ∈ cand, n ≤ f c) :
    (r.1 = -eBUSY ∧ cand = ∅) ∨ ∃ t ∈ cand, r.1 = t.toS32 ∧ ∀ c ∈ cand, f t ≤ f c := by
  induction tiers generalizing n with
  | nil =>
    refine Or.inl ⟨congrArg Prod.fst h, Finset.eq_empty_of_forall_notMem fun c hc => ?_⟩
    exact absurd (hmin c hc) (not_le.mpr (htiers c hc))
  | cons tier tiers ih =>
    obtain ⟨hmem, hall, hrest⟩ := htiers
    rcases h with ⟨t, ht, hr⟩ | ⟨hempty, h⟩
    · obtain ⟨hcand, hcost⟩ := hmem t ht
      exact Or.inr ⟨t, hcand, congrArg Prod.fst hr, fun c hc => hcost.trans (hmin c hc)⟩
    · refine ih h hrest fun c hc => lt_of_le_of_ne (hmin c hc) fun heq => ?_
      have hc' := hall c hc heq.symm
      rw [hempty] at hc'
      exact Finset.notMem_empty c hc'

/-! ### The cost of a CPU -/

section Distance

open Classical

variable (files : List WalkEntry)

/-- `t` shares the cache of the level with `c`, as far as the lists say: a CPU that is
on none of them may share it with all. -/
def Near (level : Level) (c t : Cpu m) : Prop :=
  SharedBy files level c c → SharedBy files level c t

/-- How far `t` is from `prev`: the same CPU, the same L2 cache, the same L3 cache. -/
noncomputable def cacheDistance (prev t : Cpu m) : ℕ :=
  if t = prev then 0 else if Near files .l2 prev t then 1 else if Near files .l3 prev t then 2
  else 3

/-- With SMT a CPU whose core is busy comes after all others. -/
noncomputable def searchCost (smt : Bool) (idleSmt : CpuMask m) (prev t : Cpu m) : ℕ :=
  (if smt = true ∧ t ∉ idleSmt then 4 else 0) + cacheDistance files prev t

end Distance

/-- The idle CPUs that a task may be sent to: the previous one, and unless it is bound
to that, those of its affinity. -/
def idleCandidates (p : TaskStruct m) (prev : Cpu m) (w : World m) : CpuMask m :=
  (if p.nrCpusAllowed = 1 ∨ p.migrationDisabled = true then {prev} else insert prev p.cpusPtr) ∩
    w.idle

section Tiers

variable {files : List WalkEntry} {prev : Cpu m} {allowed l2 l3 : CpuMask m}

/-- What the masks of `prev` say about a CPU of the affinity. -/
structure Domains (files : List WalkEntry) (prev : Cpu m) (allowed l2 l3 : CpuMask m) : Prop where
  l2 : ∀ t ∈ allowed, t ∈ l2 ↔ Near files .l2 prev t
  l3 : ∀ t ∈ allowed, t ∈ l3 ↔ Near files .l3 prev t

/-- What a distance below 3 stands for. -/
theorem cacheDistance_spec (files : List WalkEntry) (prev t : Cpu m) :
    (cacheDistance files prev t = 0 ↔ t = prev) ∧
      (Near files .l2 prev t → cacheDistance files prev t ≤ 1) ∧
      (cacheDistance files prev t = 1 → Near files .l2 prev t) ∧
      (Near files .l3 prev t → cacheDistance files prev t ≤ 2) ∧
      (cacheDistance files prev t = 2 → Near files .l3 prev t) ∧
      cacheDistance files prev t ≤ 3 := by
  rw [cacheDistance]
  split_ifs <;> simp_all

/-- Four sets, one for each distance, of the CPUs of `idle`. -/
theorem byCost_four {f : Cpu m → ℕ} {cand idle : CpuMask m} {n : ℕ} {R : List (CpuMask m)}
    (hdom : Domains files prev allowed l2 l3) (hcand : cand ⊆ insert prev allowed)
    (hidle : ∀ c ∈ insert prev allowed, c ∈ idle → c ∈ cand)
    (hle : ∀ c ∈ idle, f c ≤ n + cacheDistance files prev c)
    (heq : ∀ c ∈ cand, ∀ k ≤ 3, f c = n + k → c ∈ idle ∧ cacheDistance files prev c = k)
    (hrest : ByCost f cand (n + 4) R) :
    ByCost f cand n ([{prev} ∩ idle, allowed ∩ l2 ∩ idle, allowed ∩ l3 ∩ idle, allowed ∩ idle] ++
      R) := by
  have hspec := cacheDistance_spec files prev
  -- a CPU at a distance other than 0 is one of the affinity
  have hallowed : ∀ c ∈ cand, cacheDistance files prev c ≠ 0 → c ∈ allowed := by
    intro c hc hne
    exact (Finset.mem_insert.mp (hcand hc)).resolve_left fun hprev => hne ((hspec c).1.mpr hprev)
  -- one of the sets, before it is cut down to idle CPUs
  have htier : ∀ {S : CpuMask m} {k : ℕ}, k ≤ 3 →
      (∀ c ∈ S, c ∈ insert prev allowed ∧ cacheDistance files prev c ≤ k) →
      (∀ c ∈ cand, cacheDistance files prev c = k → c ∈ S) →
      (∀ c ∈ S ∩ idle, c ∈ cand ∧ f c ≤ n + k) ∧ ∀ c ∈ cand, f c = n + k → c ∈ S ∩ idle := by
    intro S k hk hin hout
    refine ⟨fun c hc => ?_, fun c hc hf => ?_⟩
    · obtain ⟨hS, hci⟩ := Finset.mem_inter.mp hc
      obtain ⟨hmay, hdist⟩ := hin c hS
      exact ⟨hidle c hmay hci, (hle c hci).trans (Nat.add_le_add_left hdist n)⟩
    · obtain ⟨hci, hdist⟩ := heq c hc k hk hf
      exact Finset.mem_inter.mpr ⟨hout c hc hdist, hci⟩
  have h0 := htier (S := {prev}) (Nat.zero_le 3)
    (by
      intro c hc
      obtain rfl := Finset.mem_singleton.mp hc
      exact ⟨Finset.mem_insert_self _ _, ((hspec c).1.mpr rfl).le⟩)
    (fun c _ hdist => Finset.mem_singleton.mpr ((hspec c).1.mp hdist))
  have h1 := htier (S := allowed ∩ l2) (k := 1) (by omega)
    (by
      intro c hc
      obtain ⟨hc, hl2⟩ := Finset.mem_inter.mp hc
      exact ⟨Finset.mem_insert_of_mem hc, (hspec c).2.1 ((hdom.l2 c hc).mp hl2)⟩)
    (by
      intro c hc hdist
      have hmay := hallowed c hc (by omega)
      exact Finset.mem_inter.mpr ⟨hmay, (hdom.l2 c hmay).mpr ((hspec c).2.2.1 hdist)⟩)
  have h2 := htier (S := allowed ∩ l3) (k := 2) (by omega)
    (by
      intro c hc
      obtain ⟨hc, hl3⟩ := Finset.mem_inter.mp hc
      exact ⟨Finset.mem_insert_of_mem hc, (hspec c).2.2.2.1 ((hdom.l3 c hc).mp hl3)⟩)
    (by
      intro c hc hdist
      have hmay := hallowed c hc (by omega)
      exact Finset.mem_inter.mpr ⟨hmay, (hdom.l3 c hmay).mpr ((hspec c).2.2.2.2.1 hdist)⟩)
  have h3 := htier (S := allowed) (k := 3) le_rfl
    (fun c hc => ⟨Finset.mem_insert_of_mem hc, (hspec c).2.2.2.2.2⟩)
    (fun c hc hdist => hallowed c hc (by omega))
  exact ⟨h0.1, h0.2, h1.1, h1.2, h2.1, h2.2, h3.1, h3.2, hrest⟩

theorem cpuMaskOf_toS32 (c : Cpu m) : cpuMaskOf m c.toS32 = {c} := by
  ext t
  rw [mem_cpuMaskOf, Finset.mem_singleton]
  exact toS32_injective.eq_iff

/-- The sets of `pick_idle_cpu`, for either setting of SMT. -/
theorem byCost_idleTiers {idleSmt idle : CpuMask m} (smt : Bool)
    (hdom : Domains files prev allowed l2 l3) (hsmt : idleSmt ⊆ idle) :
    ByCost (searchCost files smt idleSmt prev) (insert prev allowed ∩ idle) 0
      (idleTiers smt (cpuMaskOf m prev.toS32) allowed l2 l3 idleSmt idle) := by
  have hspec := cacheDistance_spec files prev
  have hcand : insert prev allowed ∩ idle ⊆ insert prev allowed := Finset.inter_subset_left
  rw [idleTiers, cpuMaskOf_toS32]
  cases smt with
  | false =>
    have hcost : ∀ c, searchCost files false idleSmt prev c = cacheDistance files prev c := by
      intro c
      simp [searchCost]
    refine byCost_four (R := []) hdom hcand (fun c hc hci => Finset.mem_inter.mpr ⟨hc, hci⟩)
      (fun c _ => ?_) (fun c hc k _ hf => ?_) fun c _ => ?_
    · rw [hcost, Nat.zero_add]
    · rw [hcost, Nat.zero_add] at hf
      exact ⟨(Finset.mem_inter.mp hc).2, hf⟩
    · rw [hcost]
      exact Nat.lt_succ_of_le (hspec c).2.2.2.2.2
  | true =>
    have hidle : ∀ c ∈ idleSmt,
        searchCost files true idleSmt prev c = cacheDistance files prev c := by
      intro c hc
      simp [searchCost, hc]
    have hbusy : ∀ c ∉ idleSmt,
        searchCost files true idleSmt prev c = 4 + cacheDistance files prev c := by
      intro c hc
      simp [searchCost, hc]
    refine byCost_four hdom hcand (fun c hc hci => Finset.mem_inter.mpr ⟨hc, hsmt hci⟩)
      (fun c hc => ?_) (fun c hc k hk hf => ?_) ?_
    · rw [hidle c hc, Nat.zero_add]
    · have hc' : c ∈ idleSmt := by
        by_contra hne
        rw [hbusy c hne] at hf
        omega
      rw [hidle c hc', Nat.zero_add] at hf
      exact ⟨hc', hf⟩
    · refine byCost_four (R := []) hdom hcand (fun c hc hci => Finset.mem_inter.mpr ⟨hc, hci⟩)
        (fun c _ => ?_) (fun c hc k hk hf => ?_) fun c _ => ?_
      · by_cases hc : c ∈ idleSmt
        · rw [hidle c hc]
          omega
        · rw [hbusy c hc]
      · have hspec := (hspec c).2.2.2.2.2
        have hc' : c ∉ idleSmt := by
          intro hin
          rw [hidle c hin] at hf
          omega
        rw [hbusy c hc'] at hf
        exact ⟨(Finset.mem_inter.mp hc).2, by omega⟩
      · have hspec := (hspec c).2.2.2.2.2
        by_cases hc : c ∈ idleSmt
        · rw [hidle c hc]
          omega
        · rw [hbusy c hc]
          omega

end Tiers

/-! ### The masks in a run -/

/-- Only the contexts of CPUs may differ. -/
def CpuCtxOnly (w w' : World m) : Prop := w' = { w with cpuCtx := w'.cpuCtx }

theorem CpuCtxOnly.trans {w₁ w₂ w₃ : World m} (h : CpuCtxOnly w₁ w₂) (h' : CpuCtxOnly w₂ w₃) :
    CpuCtxOnly w₁ w₃ := by
  rw [CpuCtxOnly] at h h' ⊢
  rw [h', h]

theorem cpuCtxOnly_enableSiblingCpu (alloc : Bool) (lvlId cpuId siblingCpuId : Int32)
    (w : World m) : CpuCtxOnly w (enableSiblingCpu alloc lvlId cpuId siblingCpuId w).2 := by
  rw [enableSiblingCpu]
  dsimp only
  split_ifs
  · split <;> rfl
  · split <;> rfl
  · rfl
  · rfl

theorem cpuCtxOnly_enableSibling (run : SiblingRun) (lvlId cpuId siblingCpuId : Int32)
    (w : World m) : CpuCtxOnly w (enableSibling run lvlId cpuId siblingCpuId w).2 := by
  cases run with
  | missing => rfl
  | failed err => rfl
  | ran alloc =>
    rw [enableSibling]
    split_ifs <;> exact cpuCtxOnly_enableSiblingCpu alloc lvlId cpuId siblingCpuId w

theorem cpuCtxOnly_enableSiblings (runs : ℕ → SiblingRun) (level : Level)
    (pairs : List (Int64 × Int64)) (s : InitState m) :
    CpuCtxOnly s.world (enableSiblings runs level pairs s).2.world := by
  induction pairs generalizing s with
  | nil => rfl
  | cons pair pairs ih =>
    have hone := cpuCtxOnly_enableSibling (runs s.calls) level.lvlId pair.1.toInt32
      pair.2.toInt32 s.world
    rw [enableSiblings]
    split
    · rename_i hcall
      rw [hcall] at hone
      exact hone
    · rename_i hcall
      rw [hcall] at hone
      exact hone.trans (ih _)

/-- `InitCacheDomains` writes the contexts of CPUs only. -/
theorem cpuCtxOnly_initCacheDomains {files : List WalkEntry} {fuel : ℕ} {denv : DomainEnv files}
    {w : World m} {s : InitState m} (h : initCacheDomains fuel denv w = some (none, s)) :
    CpuCtxOnly w s.world := by
  have hlevel : ∀ {level : Level} {s₁ s₂ : InitState m},
      initCacheDomainsLevel fuel denv level s₁ = some (none, s₂) →
      CpuCtxOnly s₁.world s₂.world := by
    intro level s₁ s₂ h
    rw [initCacheDomainsLevel] at h
    rcases htopo : getTopology fuel (denv.walk level) with _ | topo | err | _ <;> rw [htopo] at h
    · exact absurd h (by simp)
    · have hcalls := cpuCtxOnly_enableSiblings denv.runs level
        ((denv.visit level (topo level)).flatMap fun entry => siblingPairs entry.2) s₁
      rw [show enableSiblings denv.runs level _ s₁ = (none, s₂) from Option.some_inj.mp h] at hcalls
      exact hcalls
    · exact absurd h (by simp)
    · exact absurd h (by simp)
  rw [initCacheDomains] at h
  rcases h2 : initCacheDomainsLevel fuel denv .l2 (⟨w, 0⟩ : InitState m) with _ | ⟨_ | err, s₂⟩ <;>
    rw [h2] at h
  · exact absurd h (by simp)
  · exact (hlevel h2).trans (hlevel h)
  · exact absurd h (by simp)

def Label.isSibling : Label m → Bool
  | .siblingCpu _ _ _ _ => true
  | _ => false

/-- Apart from `enable_sibling_cpu`, nothing changes the contexts of CPUs. -/
theorem step_cpuCtx {ro : Rodata} {w w' : World m} {l : Label m} (hl : l.isSibling = false)
    (h : step ro w l = some w') : w'.cpuCtx = w.cpuCtx ∧ w'.nrCpuIds = w.nrCpuIds := by
  by_cases hsched : l.isScheduling = true
  · obtain ⟨queued, needed, hsame, -⟩ := step_untouched hsched h
    exact ⟨hsame.cpuCtx, hsame.nrCpuIds⟩
  · have htended := step_tended hsched h
    refine ⟨htended.cpuCtx fun alloc lvlId cpuId siblingCpuId => ?_, htended.nrCpuIds⟩
    rintro rfl
    exact absurd hl (by simp [Label.isSibling])

/-- The contexts as `InitCacheDomains` and `goland_init` have left them. -/
structure Attached (files : List WalkEntry) (w : World m) : Prop where
  isSome : ∀ level (c : Cpu m), (w.domain level c).isSome ↔ SharedBy files level c c
  inDomain : ∀ level (c t : Cpu m), w.InDomain level c t ↔ SharedBy files level c t
  nrCpuIds : w.nrCpuIds = m.nrCpuIds
  whole : Whole w

theorem domain_of_cpuCtx {w w' : World m} (h : w'.cpuCtx = w.cpuCtx) (level : Level) (c : Cpu m) :
    w'.domain level c = w.domain level c := by
  cases level <;> rw [World.domain, World.domain, h]

theorem Attached.of_eq {files : List WalkEntry} {w w' : World m} (h : Attached files w)
    (hcpu : w'.cpuCtx = w.cpuCtx) (hids : w'.nrCpuIds = m.nrCpuIds) (hwhole : Whole w') :
    Attached files w' where
  isSome level c := by rw [domain_of_cpuCtx hcpu, h.isSome]
  inDomain level c t := by rw [World.InDomain, domain_of_cpuCtx hcpu]; exact h.inDomain level c t
  nrCpuIds := hids
  whole := hwhole

/-- A mask that is missing stands for the whole affinity. -/
theorem Attached.mem_getD {files : List WalkEntry} {w : World m} (h : Attached files w)
    {allowed : CpuMask m} (level : Level) {prev t : Cpu m} (ht : t ∈ allowed) :
    t ∈ (w.domain level prev).getD allowed ↔ Near files level prev t := by
  have hsome := h.isSome level prev
  have hmem := h.inDomain level prev t
  rw [World.InDomain] at hmem
  rw [Near, ← hsome, ← hmem]
  rcases w.domain level prev with _ | mask
  · simp [ht]
  · simp

theorem Attached.pick {files : List WalkEntry} {w : World m} (h : Attached files w) (ro : Rodata)
    (env : Env m) {p : TaskStruct m} (hctx : (w.taskCtx p.pid).isSome = true)
    (hcard : p.nrCpusAllowed = p.cpusPtr.card) (hsmt : w.idleSmt ⊆ w.idle) (prev : Cpu m) :
    let r := pickIdleCpu ro env p prev.toS32 w
    (r.1 = -eBUSY ∧ idleCandidates p prev w = ∅) ∨
      ∃ t ∈ idleCandidates p prev w, r.1 = t.toS32 ∧ ∀ c ∈ idleCandidates p prev w,
        searchCost files ro.smtEnabled w.idleSmt prev t ≤
          searchCost files ro.smtEnabled w.idleSmt prev c := by
  intro r
  by_cases hbound : p.nrCpusAllowed = 1 ∨ p.migrationDisabled = true
  · -- only the previous CPU is looked at
    have hfirst : TakesFirst [{prev} ∩ w.idle] w r := by
      rw [← cpuMaskOf_toS32]
      show TakesFirst _ w (pickIdleCpu ro env p prev.toS32 w)
      rw [pickIdleCpu, if_pos hbound]
      exact takesFirst_tryPrevCpu rfl
    rw [idleCandidates, if_pos hbound]
    rcases hfirst.cases with ⟨hr, hnone⟩ | ⟨tier, htier, t, ht, hr⟩
    · exact Or.inl ⟨congrArg Prod.fst hr, hnone _ List.mem_cons_self⟩
    · obtain rfl := List.mem_singleton.mp htier
      refine Or.inr ⟨t, ht, congrArg Prod.fst hr, fun c hc => ?_⟩
      have hone : ∀ c ∈ {prev} ∩ w.idle, c = prev := fun c hc =>
        Finset.mem_singleton.mp (Finset.mem_inter.mp hc).1
      rw [hone t ht, hone c hc]
  · obtain ⟨hmany, hmigrate⟩ := not_or.mp hbound
    have hpossible : w.possible = Finset.univ := by
      refine Finset.filter_true_of_mem fun c _ => ?_
      rw [h.nrCpuIds]
      exact c.isLt
    have hlookup : w.tryLookupCpuCtx prev.toS32 = some (w.cpuCtx prev) := by
      have hlt : prev.toS32.toUInt32.toNat < m.nrCpuIds := by
        rw [prev.toNat_toS32]
        exact prev.isLt
      rw [World.tryLookupCpuCtx, dif_pos hlt]
      exact congrArg (fun c => some (w.cpuCtx c)) (Fin.ext prev.toNat_toS32)
    obtain ⟨tctx, htctx⟩ := Option.isSome_iff_exists.mp hctx
    have hsearch : Searchable p prev.toS32 w (w.cpuCtx prev) :=
      ⟨by rw [hpossible]; exact Finset.subset_univ _, hcard, hmany, by simpa using hmigrate, hsmt,
        ⟨tctx, htctx, h.whole p.pid tctx htctx⟩, hlookup,
        fun mask _ => by rw [hpossible]; exact Finset.subset_univ _,
        fun mask _ => by rw [hpossible]; exact Finset.subset_univ _⟩
    have hdom : Domains files prev p.cpusPtr ((w.cpuCtx prev).l2Cpumask.getD p.cpusPtr)
        ((w.cpuCtx prev).l3Cpumask.getD p.cpusPtr) :=
      ⟨fun t ht => h.mem_getD .l2 ht, fun t ht => h.mem_getD .l3 ht⟩
    obtain ⟨ctx, hfirst⟩ := pickIdleCpu_takesFirst ro env hsearch
    rw [idleCandidates, if_neg hbound]
    exact hfirst.least (byCost_idleTiers ro.smtEnabled hdom hsmt) fun c _ => Nat.zero_le _

/-- **The nearest idle CPU is picked.**  Let `InitCacheDomains` and `goland_init` have
returned without an error.  Then in every run, for every task that has been let in and
every previous CPU, `pick_idle_cpu` fails only if no CPU that it may use is idle; else
it returns an idle CPU that is, by the lists of the kernel, no further away than any
other, and with SMT one of an idle core if there is any. -/
theorem nearest_idle_cpu_picked {files : List WalkEntry} (hexist : ExistingCpus m files)
    (fuel : ℕ) (denv : DomainEnv files) (w₀ : World m) (hload : w₀.AtLoad)
    (hunset : ∀ level c, w₀.domain level c = none) (s : InitState m)
    (hdomains : initCacheDomains fuel denv w₀ = some (none, s)) (ie : InitEnv m) (w₁ : World m)
    (hinit : golandInit ie s.world = (0, w₁)) (ro : Rodata) (ls : List (Label m))
    (hls : ∀ l ∈ ls, l.isSibling = false) (w : World m)
    (hrun : run (admitStep ro) w₁ ls = some w) (p : TaskStruct m)
    (hctx : (w.taskCtx p.pid).isSome = true) (hcard : p.nrCpusAllowed = p.cpusPtr.card)
    (hsmt : w.idleSmt ⊆ w.idle) (env : Env m) (prev : Cpu m) :
    let r := pickIdleCpu ro env p prev.toS32 w
    (r.1 = -eBUSY ∧ idleCandidates p prev w = ∅) ∨
      ∃ t ∈ idleCandidates p prev w, r.1 = t.toS32 ∧ ∀ c ∈ idleCandidates p prev w,
        searchCost files ro.smtEnabled w.idleSmt prev t ≤
          searchCost files ro.smtEnabled w.idleSmt prev c := by
  have hstart : Attached files w₁ := by
    have hexact := domains_of_init hexist hunset hdomains
    have hwhole : Whole s.world := by
      intro pid t ht
      rw [cpuCtxOnly_initCacheDomains hdomains, hload.taskCtx] at ht
      exact absurd ht (by simp)
    obtain ⟨-, -, -, bss, dsqs, rfl⟩ := golandInit_creates hinit
    exact ⟨fun level c => (hexact level c).1, fun level c => (hexact level c).2, rfl, hwhole⟩
  have hattached : Attached files w := by
    refine invariant_of_guarded (C := fun _ l => Label.isSibling l = false) hstart
      (fun u l u' hu hl hstep => ?_) (fun u l htake => hls l htake.mem) w (visits_of_run hrun)
    obtain ⟨hcpu, hids⟩ := step_cpuCtx hl (admitStep_eq_some hstep).2
    exact hu.of_eq hcpu (hids.trans hu.nrCpuIds) (whole_step hu.whole hstep)
  exact hattached.pick ro env hctx hcard hsmt prev

/-- Task 7 is let in, and then CPU 1 is idle. -/
def cpu1FallsIdle : List (Label twoCpus) := [.initTask ⟨true, true, true⟩ 7, .setIdle {cpu1} ∅]

/-- With the lists of `cacheFiles`, a task that last ran on CPU 0 is sent to CPU 1, which
shares its L3 cache. -/
theorem nearest_idle_cpu_picked_cpu1 : ∃ fuel s w₁ w,
    initCacheDomains fuel cacheEnv (bareWorld ((TaskTable.empty twoCpus).set (plainTask 7))) =
      some (none, s) ∧
    golandInit plainInit s.world = (0, w₁) ∧
    run (admitStep plainRodata) w₁ cpu1FallsIdle = some w ∧
    (pickIdleCpu plainRodata (Env.lowest cpu0) (plainTask 7) cpu0.toS32 w).1 = cpu1.toS32 := by
  obtain ⟨fuel, s, hdomains⟩ := initCacheDomains_returns unhindered_cacheFiles existing_cacheFiles
    (bareWorld ((TaskTable.empty twoCpus).set (plainTask 7)))
  obtain ⟨w₁, hinit⟩ : ∃ w₁, golandInit plainInit s.world = (0, w₁) := by
    rw [cpuCtxOnly_initCacheDomains hdomains]
    exact ⟨_, rfl⟩
  obtain ⟨w, hrun, hctx, hidle, hidleSmt⟩ : ∃ w, run (admitStep plainRodata) w₁ cpu1FallsIdle =
      some w ∧ (w.taskCtx 7).isSome = true ∧ w.idle = {cpu1} ∧ w.idleSmt = ∅ := by
    rw [cpuCtxOnly_initCacheDomains hdomains] at hinit
    obtain rfl := (Prod.mk.inj hinit).2
    exact ⟨_, rfl, rfl, rfl, rfl⟩
  have hload : (bareWorld ((TaskTable.empty twoCpus).set (plainTask 7))).AtLoad :=
    ⟨fun _ => rfl, rfl, rfl, rfl, rfl, rfl, rfl⟩
  have hcand : idleCandidates (plainTask 7) cpu0 w = {cpu1} := by
    rw [idleCandidates, hidle]
    decide
  refine ⟨fuel, s, w₁, w, hdomains, hinit, hrun, ?_⟩
  have hpick := nearest_idle_cpu_picked existing_cacheFiles fuel cacheEnv _ hload
    (fun level c => by cases level <;> rfl) s hdomains plainInit w₁ hinit plainRodata cpu1FallsIdle
    (by decide) w hrun (plainTask 7) hctx rfl (by rw [hidle, hidleSmt]; decide)
    (Env.lowest cpu0) cpu0
  rw [hcand] at hpick
  rcases hpick with ⟨-, hnone⟩ | ⟨t, ht, hr, -⟩
  · exact absurd hnone (by decide)
  · rw [hr, Finset.mem_singleton.mp ht]

end ScxGoland
