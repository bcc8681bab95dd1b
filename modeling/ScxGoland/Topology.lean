/-
Cache domains: `GetTopology` and `InitCacheDomains` of `util/topology.go`.

`GetTopology` walks through `/sys/devices/system/cpu/` and collects, by their
contents, the CPU lists of the level 2 and level 3 caches; `InitCacheDomains`
then runs `enable_sibling_cpu` for every two CPUs of every list.  The order of
the walk and of the iterations over Go's maps, and what becomes of each run of
the BPF program, are parameters (`DomainEnv`).

* `enableSiblingCpu_cases` — one run of `enable_sibling_cpu` adds one sibling to
  one mask, or fails;
* `cache_domains_exact` — when `InitCacheDomains` returns without an error, the
  mask of a CPU holds exactly the CPUs that share a list of that level with it.
-/
import Mathlib.Data.Finmap
import ScxGoland.Callbacks
import ScxGoland.CpuList

open GoStrings

namespace ScxGoland

variable {m : Machine}

/-! ### The code -/

/-- The two cache levels, `"L2"` and `"L3"`. -/
inductive Level where
  | l2
  | l3
deriving DecidableEq

/-- The `level` argument of `initCacheDomains`. -/
def Level.lvlId : Level → Int32
  | .l2 => 2
  | .l3 => 3

/-- A file or directory that `filepath.Walk` visits: the error that it passes on,
and what `os.ReadFile` yields for it. -/
structure WalkEntry where
  path : GoString
  walkErr : Option String
  readFile : Except String GoString

/-- A Go map from the contents of the files to their CPU lists. -/
abbrev DomainMap := Finmap fun _ : GoString => List Int64

/-- The inner maps of `cacheMap`. -/
abbrev CacheMap := Level → DomainMap

/-- What a step of the walk leads to. -/
inductive WalkResult where
  | ok (cacheMap : CacheMap)
  | failed (err : String)
  | panicked

/-- The `key` and the `content` that the callback of the walk starts from: other
files are not read. -/
def WalkEntry.keyAndContent (e : WalkEntry) : Except String (Option Level × GoString) :=
  if lit "/cache/index2/" <:+: e.path then e.readFile.map fun content => (some .l2, content)
  else if lit "/cache/index3/" <:+: e.path then e.readFile.map fun content => (some .l3, content)
  else .ok (none, [])

/-- The callback of the walk.  The zero `key` is in no entry of `cacheMap`, and an
assignment to an inner map that does not exist panics. -/
def walkFn (fuel : ℕ) (e : WalkEntry) (cacheMap : CacheMap) : Option WalkResult :=
  match e.walkErr with
  | some err => some (.failed err)
  | none =>
    if lit "shared_cpu_list" <:+ e.path then
      match e.keyAndContent with
      | .error err => some (.failed err)
      | .ok (key, content) =>
        match parseCPUs fuel (trimSpace content) with
        | none => none
        | some (_, some _) => some (.ok cacheMap)
        | some (cpuIdList, none) =>
          match key with
          | none => some .panicked
          | some level =>
            some (.ok (Function.update cacheMap level
              ((cacheMap level).insert (trimSpace content) cpuIdList)))
    else some (.ok cacheMap)

/-- `filepath.Walk`, from a `cacheMap` on. -/
def walkFrom (fuel : ℕ) : List WalkEntry → CacheMap → Option WalkResult
  | [], cacheMap => some (.ok cacheMap)
  | e :: entries, cacheMap =>
    match walkFn fuel e cacheMap with
    | some (.ok cacheMap) => walkFrom fuel entries cacheMap
    | r => r

def getTopology (fuel : ℕ) (walk : List WalkEntry) : Option WalkResult :=
  walkFrom fuel walk fun _ => ∅

/-- What becomes of one call of `EnableSiblingCpu`: the program is missing, cannot
be run, or runs, with or without memory for a new mask. -/
inductive SiblingRun where
  | missing
  | failed (err : String)
  | ran (alloc : Bool)

/-- The errors of `EnableSiblingCpu`. -/
inductive SiblingErr where
  -- "prog (siblingCpu) not found"
  | notFound
  | run (err : String)
  -- "retVal: %v"
  | retVal (val : UInt32)

/-- `EnableSiblingCpu`. -/
def enableSibling (run : SiblingRun) (lvlId cpuId siblingCpuId : Int32) (w : World m) :
    Option SiblingErr × World m :=
  match run with
  | .missing => (some .notFound, w)
  | .failed err => (some (.run err), w)
  | .ran alloc =>
    let r := enableSiblingCpu alloc lvlId cpuId siblingCpuId w
    if r.1.toUInt32 ≠ 0 then (some (.retVal r.1.toUInt32), r.2) else (none, r.2)

/-- The errors of `InitCacheDomains`, and a panic of the walk. -/
inductive InitErr where
  | walk (err : String)
  | panicked
  -- "EnableSiblingCpu failed: lvl %v cpuId %v sibCpuId %v"
  | sibling (level : Int32) (cpuId sibCpuId : Int64)

/-- What `InitCacheDomains` works on: the world, and the number of calls of
`EnableSiblingCpu` so far. -/
structure InitState (m : Machine) where
  world : World m
  calls : ℕ

/-- The calls for the pairs of CPUs of a level, up to the first error. -/
def enableSiblings (runs : ℕ → SiblingRun) (level : Level) :
    List (Int64 × Int64) → InitState m → Option InitErr × InitState m
  | [], s => (none, s)
  | (cpuId, sibCpuId) :: pairs, s =>
    match enableSibling (runs s.calls) level.lvlId cpuId.toInt32 sibCpuId.toInt32 s.world with
    | (some _, w) => (some (.sibling level.lvlId cpuId sibCpuId), ⟨w, s.calls + 1⟩)
    | (none, w) => enableSiblings runs level pairs ⟨w, s.calls + 1⟩

/-- The two loops over one CPU list. -/
def siblingPairs (cpuIdList : List Int64) : List (Int64 × Int64) :=
  cpuIdList.flatMap fun cpuId => cpuIdList.map fun sibCpuId => (cpuId, sibCpuId)

/-- What Go and the machine decide: the order of the walks over the files and of
the iterations over the maps, and what becomes of each run of the program. -/
structure DomainEnv (files : List WalkEntry) where
  walk : Level → List WalkEntry
  walk_perm : ∀ level, (walk level).Perm files
  visit : Level → DomainMap → List (Σ _ : GoString, List Int64)
  visit_entries : ∀ level domains, (visit level domains : Multiset _) = domains.entries
  runs : ℕ → SiblingRun

variable {files : List WalkEntry}

/-- `initCacheDomains`; `none` if parsing a list does not end. -/
def initCacheDomainsLevel (fuel : ℕ) (env : DomainEnv files) (level : Level) (s : InitState m) :
    Option (Option InitErr × InitState m) :=
  match getTopology fuel (env.walk level) with
  | none => none
  | some (.failed err) => some (some (.walk err), s)
  | some .panicked => some (some .panicked, s)
  | some (.ok topo) =>
    let pairs := (env.visit level (topo level)).flatMap fun entry => siblingPairs entry.2
    some (enableSiblings env.runs level pairs s)

def initCacheDomains (fuel : ℕ) (env : DomainEnv files) (w : World m) :
    Option (Option InitErr × InitState m) :=
  match initCacheDomainsLevel fuel env .l2 ⟨w, 0⟩ with
  | some (none, s) => initCacheDomainsLevel fuel env .l3 s
  | r => r

/-! ### One sibling -/

/-- The mask of a level in the context of a CPU. -/
def World.domain (w : World m) (level : Level) (c : Cpu m) : Option (CpuMask m) :=
  match level with
  | .l2 => (w.cpuCtx c).l2Cpumask
  | .l3 => (w.cpuCtx c).l3Cpumask

theorem bpfCpumaskSetCpu_toS32 (s : Cpu m) (mask : CpuMask m) :
    bpfCpumaskSetCpu s.toS32 mask = insert s mask := by
  have hval := s.toNat_toS32
  rw [bpfCpumaskSetCpu, dif_pos (hval ▸ s.isLt)]
  simp only [hval]

theorem initCpumask_eq_some {alloc : Bool} {old : Option (CpuMask m)} {mask : CpuMask m}
    (h : initCpumask alloc old = some mask) : mask = old.getD ∅ := by
  cases old with
  | none =>
    cases alloc with
    | false => exact absurd h (by simp [initCpumask])
    | true => exact (Option.some_inj.mp h).symm
  | some old => exact (Option.some_inj.mp h).symm

theorem Level.lvlId_injective : Function.Injective Level.lvlId := by
  intro level level' h
  cases level <;> cases level' <;> first | rfl | exact absurd h (by decide)

/-- A run of `enable_sibling_cpu` fails and changes nothing, or adds the sibling to
the mask of the CPU and changes no other mask. -/
theorem enableSiblingCpu_cases (alloc : Bool) (lvlId cpuId siblingCpuId : Int32) (w : World m) :
    ((enableSiblingCpu alloc lvlId cpuId siblingCpuId w).1 ≠ 0 ∧
      (enableSiblingCpu alloc lvlId cpuId siblingCpuId w).2 = w) ∨
    ∃ (level : Level) (c : Cpu m), lvlId = level.lvlId ∧ cpuId = c.toS32 ∧
      ∀ level' c', (enableSiblingCpu alloc lvlId cpuId siblingCpuId w).2.domain level' c' =
        if level' = level ∧ c' = c then
          some (bpfCpumaskSetCpu siblingCpuId ((w.domain level c).getD ∅))
        else w.domain level' c' := by
  rw [enableSiblingCpu]
  split_ifs with hlt hl2 hl3
  · dsimp only
    rcases hinit : initCpumask alloc (w.cpuCtx ⟨cpuId.toUInt32.toNat, hlt⟩).l2Cpumask with _ | mask
    · exact Or.inl ⟨show -eNOMEM ≠ 0 by decide, rfl⟩
    · refine Or.inr ⟨.l2, ⟨cpuId.toUInt32.toNat, hlt⟩, hl2, (ofNat_toUInt32_toNat cpuId).symm,
        fun level' c' => ?_⟩
      have hmask : (w.domain .l2 ⟨cpuId.toUInt32.toNat, hlt⟩).getD ∅ = mask :=
        (initCpumask_eq_some hinit).symm
      rw [hmask]
      by_cases hc : c' = ⟨cpuId.toUInt32.toNat, hlt⟩
      · subst hc
        cases level' <;> simp [World.domain]
      · cases level' <;> simp [World.domain, hc]
  · dsimp only
    rcases hinit : initCpumask alloc (w.cpuCtx ⟨cpuId.toUInt32.toNat, hlt⟩).l3Cpumask with _ | mask
    · exact Or.inl ⟨show -eNOMEM ≠ 0 by decide, rfl⟩
    · refine Or.inr ⟨.l3, ⟨cpuId.toUInt32.toNat, hlt⟩, hl3, (ofNat_toUInt32_toNat cpuId).symm,
        fun level' c' => ?_⟩
      have hmask : (w.domain .l3 ⟨cpuId.toUInt32.toNat, hlt⟩).getD ∅ = mask :=
        (initCpumask_eq_some hinit).symm
      rw [hmask]
      by_cases hc : c' = ⟨cpuId.toUInt32.toNat, hlt⟩
      · subst hc
        cases level' <;> simp [World.domain]
      · cases level' <;> simp [World.domain, hc]
  · exact Or.inl ⟨show -eINVAL ≠ 0 by decide, rfl⟩
  · exact Or.inl ⟨show -eNOENT ≠ 0 by decide, rfl⟩

theorem enableSiblingCpu_domain {alloc : Bool} {level : Level} {c s : Cpu m} {w : World m}
    (h : (enableSiblingCpu alloc level.lvlId c.toS32 s.toS32 w).1 = 0) (level' : Level)
    (c' : Cpu m) :
    (enableSiblingCpu alloc level.lvlId c.toS32 s.toS32 w).2.domain level' c' =
      if level' = level ∧ c' = c then some (insert s ((w.domain level c).getD ∅))
      else w.domain level' c' := by
  rcases enableSiblingCpu_cases alloc level.lvlId c.toS32 s.toS32 w with
    ⟨hne, -⟩ | ⟨level₀, c₀, hlevel, hc, hdomain⟩
  · exact absurd h hne
  · obtain rfl := Level.lvlId_injective hlevel
    obtain rfl := toS32_injective hc
    rw [hdomain, bpfCpumaskSetCpu_toS32]

theorem enableSiblingCpu_true (level : Level) (c : Cpu m) (siblingCpuId : Int32) (w : World m) :
    (enableSiblingCpu true level.lvlId c.toS32 siblingCpuId w).1 = 0 := by
  have hlt : c.toS32.toUInt32.toNat < m.nrCpuIds := by
    rw [c.toNat_toS32]
    exact c.isLt
  have hinit : ∀ old : Option (CpuMask m), ∃ mask, initCpumask true old = some mask := by
    intro old
    cases old with
    | none => exact ⟨∅, rfl⟩
    | some old => exact ⟨old, rfl⟩
  rw [enableSiblingCpu, dif_pos hlt]
  cases level with
  | l2 =>
    obtain ⟨mask, hmask⟩ := hinit (w.cpuCtx ⟨c.toS32.toUInt32.toNat, hlt⟩).l2Cpumask
    rw [show Level.l2.lvlId = 2 from rfl, if_pos rfl, hmask]
  | l3 =>
    obtain ⟨mask, hmask⟩ := hinit (w.cpuCtx ⟨c.toS32.toUInt32.toNat, hlt⟩).l3Cpumask
    rw [show Level.l3.lvlId = 3 from rfl, if_neg (by decide), if_pos rfl, hmask]

/-- `t` is in the mask of `c`. -/
def World.InDomain (w : World m) (level : Level) (c t : Cpu m) : Prop :=
  t ∈ (w.domain level c).getD ∅

theorem subset_bpfCpumaskSetCpu (cpu : Int32) (mask : CpuMask m) :
    mask ⊆ bpfCpumaskSetCpu cpu mask := by
  rw [bpfCpumaskSetCpu]
  split_ifs
  · exact Finset.subset_insert _ _
  · exact Finset.Subset.refl _

/-- No run of `enable_sibling_cpu`, whatever its arguments, takes a CPU out of a
mask. -/
theorem inDomain_enableSiblingCpu {w : World m} {level : Level} {c t : Cpu m}
    (h : w.InDomain level c t) (alloc : Bool) (lvlId cpuId siblingCpuId : Int32) :
    (enableSiblingCpu alloc lvlId cpuId siblingCpuId w).2.InDomain level c t := by
  rcases enableSiblingCpu_cases alloc lvlId cpuId siblingCpuId w with
    ⟨-, hsame⟩ | ⟨level₀, c₀, -, -, hdomain⟩
  · rw [hsame]
    exact h
  · rw [World.InDomain, hdomain]
    split_ifs with hat
    · obtain ⟨rfl, rfl⟩ := hat
      exact subset_bpfCpumaskSetCpu _ _ h
    · exact h

/-- The masks after calls for these pairs: those of the level have the siblings
added, the others are as before. -/
structure Extends (level : Level) (pairs : List (Int64 × Int64)) (w w' : World m) : Prop where
  isSome : ∀ c : Cpu m, (w'.domain level c).isSome ↔
    (w.domain level c).isSome ∨ ∃ pair ∈ pairs, pair.1.toInt = c.val
  inDomain : ∀ c t : Cpu m, w'.InDomain level c t ↔
    w.InDomain level c t ∨ ∃ pair ∈ pairs, pair.1.toInt = c.val ∧ pair.2.toInt = t.val
  other : ∀ level', level' ≠ level → ∀ c, w'.domain level' c = w.domain level' c

/-- A Go `int` that numbers a CPU, as the `int32` of the call. -/
theorem toInt32_of_toInt {n : Int64} {c : Cpu m} (h : n.toInt = c.val) : n.toInt32 = c.toS32 := by
  have hlt := m.nrCpuIds_lt
  have hc := c.isLt
  rw [← Int32.toInt_inj, Int64.toInt_toInt32, Cpu.toInt_toS32, h]
  exact Int.bmod_eq_of_le (by omega) (by omega)

theorem extends_enableSibling {run : SiblingRun} {level : Level} {pair : Int64 × Int64}
    {w w' : World m} (hpair : ∃ c s : Cpu m, pair.1.toInt = c.val ∧ pair.2.toInt = s.val)
    (h : enableSibling run level.lvlId pair.1.toInt32 pair.2.toInt32 w = (none, w')) :
    Extends level [pair] w w' := by
  obtain ⟨c, s, hc, hs⟩ := hpair
  rw [toInt32_of_toInt hc, toInt32_of_toInt hs] at h
  cases run with
  | missing => exact absurd (Prod.mk.inj h).1 (by simp)
  | failed err => exact absurd (Prod.mk.inj h).1 (by simp)
  | ran alloc =>
    rw [enableSibling] at h
    split_ifs at h with hret
    · exact absurd (Prod.mk.inj h).1 (by simp)
    · obtain ⟨-, rfl⟩ := Prod.mk.inj h
      have hzero : (enableSiblingCpu alloc level.lvlId c.toS32 s.toS32 w).1 = 0 := by
        rw [not_not] at hret
        exact congrArg UInt32.toInt32 hret
      have hdomain := enableSiblingCpu_domain hzero
      -- a pair with this CPU in front is the pair of the call
      have hval : ∀ {n : Int64} {a b : Cpu m}, n.toInt = a.val → (n.toInt = b.val ↔ b = a) := by
        intro n a b hn
        rw [hn]
        exact ⟨fun heq => (Fin.ext (by exact_mod_cast heq)).symm, fun heq => by rw [heq]⟩
      refine ⟨fun c' => ?_, fun c' t => ?_, fun level' hne c' => ?_⟩
      · rw [hdomain level c']
        simp only [true_and, List.mem_singleton, exists_eq_left, hval hc]
        split_ifs with hcc
        · simp [hcc]
        · simp [hcc]
      · rw [World.InDomain, World.InDomain, hdomain level c']
        simp only [true_and, List.mem_singleton, exists_eq_left, hval hc, hval hs]
        split_ifs with hcc
        · subst hcc
          simp [or_comm]
        · simp [hcc]
      · rw [hdomain level' c', if_neg fun hcon => hne hcon.1]

theorem Extends.trans {level : Level} {pairs pairs' : List (Int64 × Int64)}
    {w₁ w₂ w₃ : World m} (h : Extends level pairs w₁ w₂) (h' : Extends level pairs' w₂ w₃) :
    Extends level (pairs ++ pairs') w₁ w₃ := by
  refine ⟨fun c => ?_, fun c t => ?_, fun level' hne c => ?_⟩
  · rw [h'.isSome, h.isSome, or_assoc]
    simp only [List.mem_append, or_and_right, exists_or]
  · rw [h'.inDomain, h.inDomain, or_assoc]
    simp only [List.mem_append, or_and_right, exists_or]
  · rw [h'.other level' hne, h.other level' hne]

/-- A sequence of calls without an error. -/
theorem extends_enableSiblings {runs : ℕ → SiblingRun} {level : Level}
    {pairs : List (Int64 × Int64)} {s s' : InitState m}
    (hpairs : ∀ pair ∈ pairs, ∃ c t : Cpu m, pair.1.toInt = c.val ∧ pair.2.toInt = t.val)
    (h : enableSiblings runs level pairs s = (none, s')) :
    Extends level pairs s.world s'.world := by
  induction pairs generalizing s with
  | nil =>
    obtain ⟨-, rfl⟩ := Prod.mk.inj h
    exact ⟨by simp, by simp, fun _ _ _ => rfl⟩
  | cons pair pairs ih =>
    rw [enableSiblings] at h
    rcases hcall : enableSibling (runs s.calls) level.lvlId pair.1.toInt32 pair.2.toInt32 s.world
      with ⟨_ | err, w⟩
    · rw [hcall] at h
      exact (extends_enableSibling (hpairs pair List.mem_cons_self) hcall).trans
        (ih (fun pair' h' => hpairs pair' (List.mem_cons_of_mem _ h')) h)
    · rw [hcall] at h
      exact absurd (Prod.mk.inj h).1 (by simp)

/-! ### The walk -/

/-- The file holds a CPU list of the level, with this content. -/
def WalkEntry.Holds (e : WalkEntry) (level : Level) (content : GoString) : Prop :=
  lit "shared_cpu_list" <:+ e.path ∧ e.keyAndContent = .ok (some level, content)

/-- The lists that are collected from these files. -/
def Collected (fuel : ℕ) (entries : List WalkEntry) (level : Level) (key : GoString)
    (list : List Int64) : Prop :=
  parseCPUs fuel key = some (list, none) ∧
    ∃ e ∈ entries, ∃ content, e.Holds level content ∧ trimSpace content = key

/-- A step of the walk that comes to its end collects the list of its file, or there is
none: only the empty `content` goes with the zero `key`, and it does not parse. -/
theorem walkFn_cases {fuel : ℕ} {e : WalkEntry} {cacheMap cacheMap' : CacheMap}
    (h : walkFn fuel e cacheMap = some (.ok cacheMap')) :
    (cacheMap' = cacheMap ∧ ∀ level content, e.Holds level content → ∀ list,
      parseCPUs fuel (trimSpace content) ≠ some (list, none)) ∨
    ∃ level content list, e.Holds level content ∧
      parseCPUs fuel (trimSpace content) = some (list, none) ∧
      cacheMap' = Function.update cacheMap level
        ((cacheMap level).insert (trimSpace content) list) := by
  rw [walkFn] at h
  split at h
  · exact absurd h (by simp)
  · split_ifs at h with hsuffix
    · split at h
      · exact absurd h (by simp)
      · rename_i key₀ content₀ hread
        split at h
        · exact absurd h (by simp)
        · rename_i err hparse₀
          refine Or.inl ⟨(WalkResult.ok.inj (Option.some_inj.mp h)).symm,
            fun level content hholds list hparse => ?_⟩
          have hcontent := (Prod.mk.inj (Except.ok.inj (hread.symm.trans hholds.2))).2
          rw [← hcontent, hparse₀] at hparse
          exact absurd (Prod.mk.inj (Option.some_inj.mp hparse)).2 (by simp)
        · rename_i cpuIdList hparse₀
          split at h
          · exact absurd h (by simp)
          · rename_i level₀
            exact Or.inr ⟨level₀, content₀, cpuIdList, ⟨hsuffix, hread⟩, hparse₀,
              (WalkResult.ok.inj (Option.some_inj.mp h)).symm⟩
    · exact Or.inl ⟨(WalkResult.ok.inj (Option.some_inj.mp h)).symm,
        fun level content hholds => absurd hholds.1 hsuffix⟩

/-- A file holds one list, of one level. -/
theorem WalkEntry.Holds.unique {e : WalkEntry} {level level' : Level} {content content' : GoString}
    (h : e.Holds level content) (h' : e.Holds level' content') :
    level = level' ∧ content = content' := by
  obtain ⟨hlevel, hcontent⟩ := Prod.mk.inj (Except.ok.inj (h.2.symm.trans h'.2))
  exact ⟨Option.some_inj.mp hlevel, hcontent⟩

theorem collected_singleton_iff {fuel : ℕ} {e : WalkEntry} {level level₀ : Level}
    {content₀ key : GoString} {list list₀ : List Int64} (hholds₀ : e.Holds level₀ content₀)
    (hparse₀ : parseCPUs fuel (trimSpace content₀) = some (list₀, none)) :
    Collected fuel [e] level key list ↔
      level = level₀ ∧ key = trimSpace content₀ ∧ list₀ = list := by
  constructor
  · rintro ⟨hparse, e', he', content, hholds, rfl⟩
    rw [List.mem_singleton.mp he'] at hholds
    obtain ⟨rfl, rfl⟩ := hholds.unique hholds₀
    rw [hparse₀] at hparse
    exact ⟨rfl, rfl, (Prod.mk.inj (Option.some_inj.mp hparse)).1⟩
  · rintro ⟨rfl, rfl, rfl⟩
    exact ⟨hparse₀, e, List.mem_singleton_self e, content₀, hholds₀, rfl⟩

theorem walkFn_ok {fuel : ℕ} {e : WalkEntry} {cacheMap cacheMap' : CacheMap}
    (hparsed : ∀ level key list, (cacheMap level).lookup key = some list →
      parseCPUs fuel key = some (list, none))
    (h : walkFn fuel e cacheMap = some (.ok cacheMap')) (level : Level) (key : GoString)
    (list : List Int64) :
    (cacheMap' level).lookup key = some list ↔
      (cacheMap level).lookup key = some list ∨ Collected fuel [e] level key list := by
  rcases walkFn_cases h with ⟨rfl, hnone⟩ | ⟨level₀, content₀, list₀, hholds₀, hparse₀, rfl⟩
  · refine ⟨Or.inl, fun hor => hor.resolve_right ?_⟩
    rintro ⟨hparse, e', he', content, hholds, rfl⟩
    rw [List.mem_singleton.mp he'] at hholds
    exact hnone level content hholds list hparse
  · rw [collected_singleton_iff hholds₀ hparse₀]
    by_cases hlevel : level = level₀
    · subst hlevel
      rw [Function.update_self]
      by_cases hkey : key = trimSpace content₀
      · subst hkey
        rw [Finmap.lookup_insert, Option.some_inj]
        refine ⟨fun heq => Or.inr ⟨rfl, rfl, heq⟩, fun hor => ?_⟩
        rcases hor with hold | hnew
        · -- the list was collected from another file with the same content
          have hparse := hparsed level _ list hold
          rw [hparse₀] at hparse
          exact (Prod.mk.inj (Option.some_inj.mp hparse)).1
        · exact hnew.2.2
      · rw [Finmap.lookup_insert_of_ne _ hkey]
        exact ⟨Or.inl, fun hor => hor.resolve_right fun hnew => hkey hnew.2.1⟩
    · rw [Function.update_of_ne hlevel]
      exact ⟨Or.inl, fun hor => hor.resolve_right fun hnew => hlevel hnew.1⟩

theorem walkFrom_ok {fuel : ℕ} {entries : List WalkEntry} {cacheMap cacheMap' : CacheMap}
    (hparsed : ∀ level key list, (cacheMap level).lookup key = some list →
      parseCPUs fuel key = some (list, none))
    (h : walkFrom fuel entries cacheMap = some (.ok cacheMap')) (level : Level) (key : GoString)
    (list : List Int64) :
    (cacheMap' level).lookup key = some list ↔
      (cacheMap level).lookup key = some list ∨ Collected fuel entries level key list := by
  induction entries generalizing cacheMap with
  | nil =>
    obtain rfl := WalkResult.ok.inj (Option.some_inj.mp h)
    simp [Collected]
  | cons e entries ih =>
    rw [walkFrom] at h
    rcases hstep : walkFn fuel e cacheMap with _ | cacheMap₁ | err | _
    · rw [hstep] at h
      exact absurd h (by simp)
    · rw [hstep] at h
      have hone := walkFn_ok hparsed hstep
      have hparsed₁ : ∀ level key list, (cacheMap₁ level).lookup key = some list →
          parseCPUs fuel key = some (list, none) := by
        intro level key list hlookup
        rcases (hone level key list).mp hlookup with hold | hnew
        · exact hparsed level key list hold
        · exact hnew.1
      rw [ih hparsed₁ h, hone, or_assoc]
      simp only [Collected, List.mem_cons, List.not_mem_nil, or_false, ← and_or_left,
        exists_eq_or_imp, exists_eq_left]
    · rw [hstep] at h
      exact absurd h (by simp)
    · rw [hstep] at h
      exact absurd h (by simp)

/-- A walk that comes to its end has parsed every list. -/
theorem walkFrom_parses {fuel : ℕ} {entries : List WalkEntry} {cacheMap cacheMap' : CacheMap}
    (h : walkFrom fuel entries cacheMap = some (.ok cacheMap')) {e : WalkEntry} (he : e ∈ entries)
    {level : Level} {content : GoString} (hholds : e.Holds level content) :
    (parseCPUs fuel (trimSpace content)).isSome := by
  induction entries generalizing cacheMap with
  | nil => exact absurd he List.not_mem_nil
  | cons e' entries ih =>
    rw [walkFrom] at h
    rcases hstep : walkFn fuel e' cacheMap with _ | cacheMap₁ | err | _
    · rw [hstep] at h
      exact absurd h (by simp)
    · rw [hstep] at h
      rcases List.mem_cons.mp he with rfl | he
      · by_contra hnone
        rw [Option.not_isSome_iff_eq_none] at hnone
        rw [walkFn] at hstep
        split at hstep
        · exact absurd hstep (by simp)
        · rw [if_pos hholds.1, hholds.2] at hstep
          dsimp only at hstep
          rw [hnone] at hstep
          exact absurd hstep (by simp)
      · exact ih h he
    · rw [hstep] at h
      exact absurd h (by simp)
    · rw [hstep] at h
      exact absurd h (by simp)

theorem getTopology_ok {fuel : ℕ} {walk : List WalkEntry} {topo : CacheMap}
    (h : getTopology fuel walk = some (.ok topo)) (level : Level) (key : GoString)
    (list : List Int64) :
    (topo level).lookup key = some list ↔ Collected fuel walk level key list := by
  rw [walkFrom_ok (by simp) h]
  simp

/-! ### What the files say -/

/-- The CPU list names the number. -/
def Names (content : GoString) (n : ℤ) : Prop :=
  ∃ parts, DenoteAll ((trimSpace content).splitOn comma) parts ∧
    ∃ part ∈ parts, part.1 ≤ n ∧ n ≤ part.2

/-- Some list of the level contains both CPUs. -/
def SharedBy (files : List WalkEntry) (level : Level) (c t : Cpu m) : Prop :=
  ∃ e ∈ files, ∃ content, e.Holds level content ∧ Names content c.val ∧ Names content t.val

theorem names_iff_of_denoteAll {content : GoString} {parts : List (ℤ × ℤ)}
    (hparts : DenoteAll ((trimSpace content).splitOn comma) parts) (n : ℤ) :
    Names content n ↔ ∃ part ∈ parts, part.1 ≤ n ∧ n ≤ part.2 := by
  constructor
  · rintro ⟨parts', hparts', hex⟩
    rwa [hparts.unique hparts']
  · exact fun hex => ⟨parts, hparts, hex⟩

theorem names_iff {fuel : ℕ} {content : GoString} {list : List Int64}
    (h : parseCPUs fuel (trimSpace content) = some (list, none)) (n : ℤ) :
    Names content n ↔ ∃ x ∈ list, x.toInt = n := by
  obtain ⟨-, parts, hparts, hval⟩ := (parseCPUs_spec h).resolve_right fun hcon => hcon.1 rfl
  rw [names_iff_of_denoteAll hparts, ← List.mem_map, hval, List.mem_flatMap]
  simp only [mem_intRange]

/-- Every list that names a CPU is collected. -/
theorem collected_of_names {fuel : ℕ} {walk : List WalkEntry} {topo : CacheMap}
    (h : getTopology fuel walk = some (.ok topo)) {e : WalkEntry} (he : e ∈ walk) {level : Level}
    {content : GoString} (hholds : e.Holds level content) {n : ℤ} (hn : Names content n) :
    ∃ list, parseCPUs fuel (trimSpace content) = some (list, none) ∧
      (topo level).lookup (trimSpace content) = some list := by
  obtain ⟨⟨list, err⟩, hparse⟩ := Option.isSome_iff_exists.mp (walkFrom_parses h he hholds)
  rcases parseCPUs_spec hparse with ⟨rfl, -⟩ | ⟨-, hnone⟩
  · exact ⟨list, hparse, (getTopology_ok h _ _ _).mpr ⟨hparse, e, he, content, hholds, rfl⟩⟩
  · obtain ⟨parts, hparts, -⟩ := hn
    exact absurd hparts (hnone parts)

theorem mem_siblingPairs {list : List Int64} {pair : Int64 × Int64} :
    pair ∈ siblingPairs list ↔ pair.1 ∈ list ∧ pair.2 ∈ list := by
  simp only [siblingPairs, List.mem_flatMap, List.mem_map]
  constructor
  · rintro ⟨cpuId, hcpu, sibCpuId, hsib, rfl⟩
    exact ⟨hcpu, hsib⟩
  · rintro ⟨hcpu, hsib⟩
    exact ⟨pair.1, hcpu, pair.2, hsib, rfl⟩

/-- The pairs of a level that `initCacheDomains` goes through. -/
theorem mem_pairs_iff {fuel : ℕ} {env : DomainEnv files} {level : Level} {topo : CacheMap}
    (h : getTopology fuel (env.walk level) = some (.ok topo)) (a b : ℤ) :
    (∃ pair ∈ (env.visit level (topo level)).flatMap fun entry => siblingPairs entry.2,
      pair.1.toInt = a ∧ pair.2.toInt = b) ↔
      ∃ e ∈ files, ∃ content, e.Holds level content ∧ Names content a ∧ Names content b := by
  have hvisit : ∀ entry, entry ∈ env.visit level (topo level) ↔
      (topo level).lookup entry.1 = some entry.2 := by
    intro entry
    rw [Finmap.lookup_eq_some_iff, ← env.visit_entries level (topo level)]
    exact Multiset.mem_coe.symm
  constructor
  · rintro ⟨pair, hpair, ha, hb⟩
    obtain ⟨entry, hentry, hpair⟩ := List.mem_flatMap.mp hpair
    obtain ⟨hcpu, hsib⟩ := mem_siblingPairs.mp hpair
    obtain ⟨hparse, e, he, content, hholds, hkey⟩ :=
      (getTopology_ok h _ _ _).mp ((hvisit entry).mp hentry)
    rw [← hkey] at hparse
    exact ⟨e, (env.walk_perm level).mem_iff.mp he, content, hholds,
      (names_iff hparse a).mpr ⟨_, hcpu, ha⟩, (names_iff hparse b).mpr ⟨_, hsib, hb⟩⟩
  · rintro ⟨e, he, content, hholds, ha, hb⟩
    obtain ⟨list, hparse, hlookup⟩ :=
      collected_of_names h ((env.walk_perm level).mem_iff.mpr he) hholds ha
    obtain ⟨x, hx, rfl⟩ := (names_iff hparse a).mp ha
    obtain ⟨y, hy, rfl⟩ := (names_iff hparse b).mp hb
    refine ⟨(x, y), List.mem_flatMap.mpr ⟨⟨trimSpace content, list⟩, (hvisit _).mpr hlookup, ?_⟩,
      rfl, rfl⟩
    exact mem_siblingPairs.mpr ⟨hx, hy⟩

/-! ### All calls -/

section Domains

variable {fuel : ℕ} {env : DomainEnv files}

/-- The lists name CPUs of the machine. -/
def ExistingCpus (m : Machine) (files : List WalkEntry) : Prop :=
  ∀ e ∈ files, ∀ level content, e.Holds level content → ∀ n, Names content n →
    ∃ c : Cpu m, n = c.val

theorem existing_pairs {level : Level} {topo : CacheMap} (hexist : ExistingCpus m files)
    (h : getTopology fuel (env.walk level) = some (.ok topo)) :
    ∀ pair ∈ (env.visit level (topo level)).flatMap fun entry => siblingPairs entry.2,
      ∃ c t : Cpu m, pair.1.toInt = c.val ∧ pair.2.toInt = t.val := by
  intro pair hpair
  obtain ⟨e, he, content, hholds, ha, hb⟩ :=
    (mem_pairs_iff h pair.1.toInt pair.2.toInt).mp ⟨pair, hpair, rfl, rfl⟩
  obtain ⟨c, hc⟩ := hexist e he level content hholds _ ha
  obtain ⟨t, ht⟩ := hexist e he level content hholds _ hb
  exact ⟨c, t, hc, ht⟩

/-- One level: the siblings that the files of the level name are added. -/
structure Gains (files : List WalkEntry) (level : Level) (w w' : World m) : Prop where
  isSome : ∀ c : Cpu m, (w'.domain level c).isSome ↔
    (w.domain level c).isSome ∨ SharedBy files level c c
  inDomain : ∀ c t : Cpu m, w'.InDomain level c t ↔
    w.InDomain level c t ∨ SharedBy files level c t
  other : ∀ level', level' ≠ level → ∀ c, w'.domain level' c = w.domain level' c

theorem gains_of_level {level : Level} {s s' : InitState m} (hexist : ExistingCpus m files)
    (h : initCacheDomainsLevel fuel env level s = some (none, s')) :
    Gains files level s.world s'.world := by
  rw [initCacheDomainsLevel] at h
  rcases htopo : getTopology fuel (env.walk level) with _ | topo | err | _
  · rw [htopo] at h
    exact absurd h (by simp)
  · rw [htopo] at h
    have hpairs := mem_pairs_iff htopo
    have hextends : Extends level ((env.visit level (topo level)).flatMap
        fun entry => siblingPairs entry.2) s.world s'.world :=
      extends_enableSiblings (existing_pairs hexist htopo) (Option.some_inj.mp h)
    refine ⟨fun c => ?_, fun c t => ?_, hextends.other⟩
    · rw [hextends.isSome]
      refine or_congr_right ⟨?_, ?_⟩
      · rintro ⟨pair, hpair, hc⟩
        obtain ⟨e, he, content, hholds, ha, -⟩ :=
          (hpairs c.val pair.2.toInt).mp ⟨pair, hpair, hc, rfl⟩
        exact ⟨e, he, content, hholds, ha, ha⟩
      · intro hshared
        obtain ⟨pair, hpair, hc, -⟩ := (hpairs c.val c.val).mpr hshared
        exact ⟨pair, hpair, hc⟩
    · rw [hextends.inDomain, hpairs]
      rfl
  · rw [htopo] at h
    exact absurd h (by simp)
  · rw [htopo] at h
    exact absurd h (by simp)

/-- A mask is known by its being set and by its CPUs. -/
theorem domain_ext {w w' : World m} {level : Level} {c : Cpu m}
    (hsome : (w'.domain level c).isSome ↔ (w.domain level c).isSome)
    (hmem : ∀ t, w'.InDomain level c t ↔ w.InDomain level c t) :
    w'.domain level c = w.domain level c := by
  have hmask : (w'.domain level c).getD ∅ = (w.domain level c).getD ∅ := Finset.ext hmem
  rcases hd : w.domain level c with _ | mask
  · rw [hd] at hsome
    rcases hd' : w'.domain level c with _ | mask'
    · rfl
    · rw [hd'] at hsome
      exact absurd hsome (by simp)
  · rw [hd] at hsome hmask
    obtain ⟨mask', hd'⟩ := Option.isSome_iff_exists.mp (hsome.mpr rfl)
    rw [hd'] at hmask ⊢
    exact congrArg some hmask

/-- Both levels, from masks that are not set. -/
theorem domains_of_init {w : World m} {s : InitState m} (hexist : ExistingCpus m files)
    (hunset : ∀ level c, w.domain level c = none)
    (h : initCacheDomains fuel env w = some (none, s)) (level : Level) (c : Cpu m) :
    ((s.world.domain level c).isSome ↔ SharedBy files level c c) ∧
      ∀ t, s.world.InDomain level c t ↔ SharedBy files level c t := by
  rw [initCacheDomains] at h
  rcases h2 : initCacheDomainsLevel fuel env .l2 (⟨w, 0⟩ : InitState m) with _ | ⟨_ | err, s₂⟩
  · rw [h2] at h
    exact absurd h (by simp)
  · rw [h2] at h
    have hl2 := gains_of_level hexist h2
    have hl3 := gains_of_level hexist h
    have hempty : ∀ level (c t : Cpu m), ¬ w.InDomain level c t := by
      intro level c t
      rw [World.InDomain, hunset]
      exact Finset.notMem_empty t
    cases level with
    | l2 =>
      have hsame := hl3.other .l2 (by decide) c
      refine ⟨?_, fun t => ?_⟩
      · rw [hsame, hl2.isSome]
        simp [hunset]
      · rw [World.InDomain, hsame]
        exact (hl2.inDomain c t).trans (or_iff_right (hempty _ _ _))
    | l3 =>
      have hsame := hl2.other .l3 (by decide) c
      refine ⟨(hl3.isSome c).trans ?_, fun t => (hl3.inDomain c t).trans ?_⟩
      · rw [hsame]
        simp [hunset]
      · rw [World.InDomain, hsame]
        exact or_iff_right (hempty _ _ _)
  · rw [h2] at h
    exact absurd h (by simp)

/-- Everything can be read, every CPU list is in the grammar, and every run of the
program finds the memory it needs. -/
structure Unhindered (files : List WalkEntry) (env : DomainEnv files) : Prop where
  walkErr : ∀ e ∈ files, e.walkErr = none
  readFile : ∀ e ∈ files, ∃ content, e.readFile = .ok content
  lists : ∀ e ∈ files, ∀ level content, e.Holds level content →
    ∃ parts, DenoteAll ((trimSpace content).splitOn comma) parts
  runs : ∀ n, env.runs n = .ran true

/-- A list of existing CPUs has no range up to the largest `int`. -/
theorem parseCPUs_of_existing {content : GoString}
    (hcpus : ∀ n, Names content n → ∃ c : Cpu m, n = c.val) {parts : List (ℤ × ℤ)}
    (hparts : DenoteAll ((trimSpace content).splitOn comma) parts) :
    ∃ list least, ∀ fuel, least ≤ fuel →
      parseCPUs fuel (trimSpace content) = some (list, none) := by
  have hstuck : ¬ Stuck ((trimSpace content).splitOn comma) := by
    rintro ⟨before, segment, after, heq, -, lo, hi, a, hs, hlo, hhi, ha, hb⟩
    have hle : a ≤ Int64.maxValue := by
      rw [Int64.le_iff_toInt_le]
      exact a.toInt_le
    have hdenotes := Denotes.range hs hlo hhi ha hb hle
    obtain ⟨part, hpart, hsame⟩ : ∃ part ∈ parts, Denotes (trimSpace segment) part.1 part.2 :=
      hparts.exists_part (by rw [heq]; simp)
    obtain ⟨hfirst, hlast⟩ := hsame.unique hdenotes
    obtain ⟨c, hc⟩ := hcpus part.2 ⟨parts, hparts, part, hpart, by
      rw [hfirst, hlast]
      exact Int64.le_iff_toInt_le.mp hle, le_rfl⟩
    have hlt := lt_trans c.isLt m.nrCpuIds_lt
    rw [hlast, show Int64.maxValue.toInt = 2 ^ 63 - 1 from rfl] at hc
    omega
  rcases parseSegments_cases hstuck [] with ⟨-, list, least, -, heq, -⟩ |
    ⟨⟨segment, hsegment, hbad⟩, -⟩
  · exact ⟨list, least, heq⟩
  · obtain ⟨a, b, hdenotes⟩ := hparts.forall segment hsegment
    exact absurd hdenotes (hbad a b)

/-- The callback goes on to the next file; for a file of another level the empty
content is parsed, which fails before the assignment to a nil map. -/
theorem walkFn_returns (hgood : Unhindered files env) (hexist : ExistingCpus m files)
    {e : WalkEntry} (he : e ∈ files) :
    ∃ least, ∀ fuel, least ≤ fuel → ∀ cacheMap, ∃ cacheMap',
      walkFn fuel e cacheMap = some (.ok cacheMap') := by
  by_cases hsuffix : lit "shared_cpu_list" <:+ e.path
  · obtain ⟨content, hread⟩ := hgood.readFile e he
    have hlevel : ∀ level content, e.Holds level content → ∃ list least, ∀ fuel, least ≤ fuel →
        parseCPUs fuel (trimSpace content) = some (list, none) := by
      intro level content hholds
      obtain ⟨parts, hparts⟩ := hgood.lists e he level content hholds
      exact parseCPUs_of_existing (hexist e he level content hholds) hparts
    rcases hkey : e.keyAndContent with err | ⟨_ | level, content'⟩
    · rw [WalkEntry.keyAndContent, hread] at hkey
      split_ifs at hkey
      all_goals exact absurd hkey (by simp [Except.map])
    · have hempty : content' = [] := by
        rw [WalkEntry.keyAndContent, hread] at hkey
        split_ifs at hkey
        · exact absurd hkey (by simp [Except.map])
        · exact absurd hkey (by simp [Except.map])
        · exact (Prod.mk.inj (Except.ok.inj hkey)).2.symm
      refine ⟨0, fun fuel _ cacheMap => ⟨cacheMap, ?_⟩⟩
      rw [walkFn, hgood.walkErr e he, if_pos hsuffix, hkey, hempty]
      rfl
    · obtain ⟨list, least, hparse⟩ := hlevel level content' ⟨hsuffix, hkey⟩
      refine ⟨least, fun fuel hfuel cacheMap => ⟨Function.update cacheMap level
        ((cacheMap level).insert (trimSpace content') list), ?_⟩⟩
      rw [walkFn, hgood.walkErr e he, if_pos hsuffix, hkey]
      dsimp only
      rw [hparse fuel hfuel]
  · refine ⟨0, fun fuel _ cacheMap => ⟨cacheMap, ?_⟩⟩
    rw [walkFn, hgood.walkErr e he, if_neg hsuffix]

theorem walkFrom_returns (hgood : Unhindered files env) (hexist : ExistingCpus m files)
    {entries : List WalkEntry} (hentries : ∀ e ∈ entries, e ∈ files) :
    ∃ least, ∀ fuel, least ≤ fuel → ∀ cacheMap, ∃ cacheMap',
      walkFrom fuel entries cacheMap = some (.ok cacheMap') := by
  induction entries with
  | nil => exact ⟨0, fun _ _ cacheMap => ⟨cacheMap, rfl⟩⟩
  | cons e entries ih =>
    obtain ⟨least₁, hone⟩ := walkFn_returns hgood hexist (hentries e List.mem_cons_self)
    obtain ⟨least₂, hrest⟩ := ih fun e' he' => hentries e' (List.mem_cons_of_mem _ he')
    refine ⟨max least₁ least₂, fun fuel hfuel cacheMap => ?_⟩
    obtain ⟨cacheMap₁, h₁⟩ := hone fuel (le_trans (le_max_left _ _) hfuel) cacheMap
    obtain ⟨cacheMap₂, h₂⟩ := hrest fuel (le_trans (le_max_right _ _) hfuel) cacheMap₁
    exact ⟨cacheMap₂, by rw [walkFrom, h₁]; exact h₂⟩

theorem enableSiblings_returns {runs : ℕ → SiblingRun} (hruns : ∀ n, runs n = .ran true)
    {level : Level} {pairs : List (Int64 × Int64)}
    (hpairs : ∀ pair ∈ pairs, ∃ c t : Cpu m, pair.1.toInt = c.val ∧ pair.2.toInt = t.val)
    (s : InitState m) : ∃ s', enableSiblings runs level pairs s = (none, s') := by
  induction pairs generalizing s with
  | nil => exact ⟨s, rfl⟩
  | cons pair pairs ih =>
    obtain ⟨c, -, hc, -⟩ := hpairs pair List.mem_cons_self
    have hzero := enableSiblingCpu_true level c pair.2.toInt32 s.world
    rw [enableSiblings, hruns, enableSibling, toInt32_of_toInt hc, if_neg (by rw [hzero]; decide)]
    exact ih (fun pair' h' => hpairs pair' (List.mem_cons_of_mem _ h')) _

/-- With all files readable and all memory at hand, `InitCacheDomains` returns
without an error. -/
theorem initCacheDomains_returns (hgood : Unhindered files env) (hexist : ExistingCpus m files)
    (w : World m) : ∃ fuel s, initCacheDomains fuel env w = some (none, s) := by
  have hlevel : ∀ level, ∃ least, ∀ fuel, least ≤ fuel → ∀ s : InitState m, ∃ s',
      initCacheDomainsLevel fuel env level s = some (none, s') := by
    intro level
    obtain ⟨least, hwalk⟩ := walkFrom_returns hgood hexist
      fun e (he : e ∈ env.walk level) => (env.walk_perm level).mem_iff.mp he
    refine ⟨least, fun fuel hfuel s => ?_⟩
    obtain ⟨topo, htopo⟩ := hwalk fuel hfuel fun _ => ∅
    obtain ⟨s', hs'⟩ := enableSiblings_returns hgood.runs (existing_pairs hexist htopo) s
    exact ⟨s', by rw [initCacheDomainsLevel, getTopology, htopo]; exact congrArg some hs'⟩
  obtain ⟨least₂, h₂⟩ := hlevel .l2
  obtain ⟨least₃, h₃⟩ := hlevel .l3
  obtain ⟨s₂, hs₂⟩ := h₂ (max least₂ least₃) (le_max_left _ _) ⟨w, 0⟩
  obtain ⟨s₃, hs₃⟩ := h₃ (max least₂ least₃) (le_max_right _ _) s₂
  exact ⟨max least₂ least₃, s₃, by rw [initCacheDomains, hs₂]; exact hs₃⟩

/-- **The cache domains are those of the hardware.**  When `InitCacheDomains`
returns without an error: a mask is set iff some list of the level contains the
CPU, and it then holds exactly the CPUs that share a list of the level with it.
So the relation is symmetric, a CPU is in its own mask, no later call takes a
CPU out of a mask, and the contexts are the same for every order of the walks
and of the iterations. -/
theorem cache_domains_exact {w : World m} {s : InitState m} (hexist : ExistingCpus m files)
    (hunset : ∀ level c, w.domain level c = none)
    (h : initCacheDomains fuel env w = some (none, s)) :
    (∀ level (c : Cpu m), (s.world.domain level c).isSome ↔ SharedBy files level c c) ∧
    (∀ level (c t : Cpu m), s.world.InDomain level c t ↔ SharedBy files level c t) ∧
    (∀ level (c t : Cpu m), s.world.InDomain level c t → s.world.InDomain level t c) ∧
    (∀ level (c : Cpu m), (s.world.domain level c).isSome → s.world.InDomain level c c) ∧
    (∀ level (c t : Cpu m) (alloc : Bool) (lvlId cpuId siblingCpuId : Int32),
      s.world.InDomain level c t →
        (enableSiblingCpu alloc lvlId cpuId siblingCpuId s.world).2.InDomain level c t) ∧
    ∀ (fuel' : ℕ) (env' : DomainEnv files) (s' : InitState m),
      initCacheDomains fuel' env' w = some (none, s') → s'.world.cpuCtx = s.world.cpuCtx := by
  have hdomains := domains_of_init hexist hunset h
  refine ⟨fun level c => (hdomains level c).1, fun level c => (hdomains level c).2,
    fun level c t hmem => ?_, fun level c hsome => ?_,
    fun level c t alloc lvlId cpuId siblingCpuId hmem =>
      inDomain_enableSiblingCpu hmem alloc lvlId cpuId siblingCpuId,
    fun fuel' env' s' h' => ?_⟩
  · obtain ⟨e, he, content, hholds, hc, ht⟩ := ((hdomains level c).2 t).mp hmem
    exact ((hdomains level t).2 c).mpr ⟨e, he, content, hholds, ht, hc⟩
  · exact ((hdomains level c).2 c).mpr ((hdomains level c).1.mp hsome)
  · have hdomains' := domains_of_init hexist hunset h'
    have hsame : ∀ level c, s'.world.domain level c = s.world.domain level c := by
      intro level c
      refine domain_ext ?_ fun t => ?_
      · rw [(hdomains' level c).1, (hdomains level c).1]
      · exact ((hdomains' level c).2 t).trans ((hdomains level c).2 t).symm
    funext c
    exact congrArg₂ CpuCtx.mk (hsame .l2 c) (hsame .l3 c)

end Domains

/-- CPU 0 has an L2 cache of its own and shares its L3 cache with CPU 1; there is
a list of the L1 cache, too. -/
def cacheFiles : List WalkEntry :=
  [⟨lit "/sys/devices/system/cpu/cpu0/cache/index0/shared_cpu_list", none, .ok (lit "0\n")⟩,
   ⟨lit "/sys/devices/system/cpu/cpu0/cache/index2/shared_cpu_list", none, .ok (lit "0\n")⟩,
   ⟨lit "/sys/devices/system/cpu/cpu0/cache/index3/shared_cpu_list", none, .ok (lit "0-1\n")⟩]

/-- The files in this order, and the maps in some order. -/
noncomputable def cacheEnv : DomainEnv cacheFiles where
  walk _ := cacheFiles
  walk_perm _ := List.Perm.refl _
  visit _ domains := domains.entries.toList
  visit_entries _ _ := Multiset.coe_toList _
  runs _ := .ran true

theorem holds_cacheFiles {e : WalkEntry} (he : e ∈ cacheFiles) {level : Level} {content : GoString}
    (hholds : e.Holds level content) :
    (level = .l2 ∧ content = lit "0\n") ∨ (level = .l3 ∧ content = lit "0-1\n") := by
  obtain ⟨-, hkey⟩ := hholds
  simp only [cacheFiles, List.mem_cons, List.not_mem_nil, or_false] at he
  rw [WalkEntry.keyAndContent] at hkey
  rcases he with rfl | rfl | rfl
  · rw [if_neg (by decide +kernel), if_neg (by decide +kernel)] at hkey
    exact absurd (Prod.mk.inj (Except.ok.inj hkey)).1 (by simp)
  · rw [if_pos (by decide +kernel)] at hkey
    obtain ⟨hlevel, hcontent⟩ := Prod.mk.inj (Except.ok.inj hkey)
    exact Or.inl ⟨(Option.some_inj.mp hlevel).symm, hcontent.symm⟩
  · rw [if_neg (by decide +kernel), if_pos (by decide +kernel)] at hkey
    obtain ⟨hlevel, hcontent⟩ := Prod.mk.inj (Except.ok.inj hkey)
    exact Or.inr ⟨(Option.some_inj.mp hlevel).symm, hcontent.symm⟩

theorem denoteAll_zero : DenoteAll ((trimSpace (lit "0\n")).splitOn comma) [(0, 0)] := by
  have hsplit : (trimSpace (lit "0\n")).splitOn comma = [lit "0"] := by decide +kernel
  rw [hsplit]
  exact .cons (.single (n := 0) (by decide +kernel) (by decide +kernel)) .nil

theorem denoteAll_zero_one : DenoteAll ((trimSpace (lit "0-1\n")).splitOn comma) [(0, 1)] := by
  have hsplit : (trimSpace (lit "0-1\n")).splitOn comma = [lit "0-1"] := by decide +kernel
  rw [hsplit]
  exact .cons (.range (a := 0) (b := 1) (show _ = lit "0" ++ dash :: lit "1" by decide +kernel)
    (by decide +kernel) (by decide +kernel) (by decide +kernel) (by decide +kernel)
    (by decide +kernel)) .nil

theorem existing_cacheFiles : ExistingCpus twoCpus cacheFiles := by
  intro e he level content hholds n hn
  rcases holds_cacheFiles he hholds with ⟨-, rfl⟩ | ⟨-, rfl⟩
  · rw [names_iff_of_denoteAll denoteAll_zero] at hn
    obtain ⟨part, hpart, hge, hle⟩ := hn
    obtain rfl := List.mem_singleton.mp hpart
    exact ⟨cpu0, le_antisymm hle hge⟩
  · rw [names_iff_of_denoteAll denoteAll_zero_one] at hn
    obtain ⟨part, hpart, hge, hle⟩ := hn
    obtain rfl := List.mem_singleton.mp hpart
    dsimp only at hge hle
    interval_cases n
    · exact ⟨cpu0, rfl⟩
    · exact ⟨cpu1, rfl⟩

theorem unhindered_cacheFiles : Unhindered cacheFiles cacheEnv where
  walkErr := by
    intro e he
    simp only [cacheFiles, List.mem_cons, List.not_mem_nil, or_false] at he
    rcases he with rfl | rfl | rfl <;> rfl
  readFile := by
    intro e he
    simp only [cacheFiles, List.mem_cons, List.not_mem_nil, or_false] at he
    rcases he with rfl | rfl | rfl <;> exact ⟨_, rfl⟩
  lists := by
    intro e he level content hholds
    rcases holds_cacheFiles he hholds with ⟨-, rfl⟩ | ⟨-, rfl⟩
    · exact ⟨_, denoteAll_zero⟩
    · exact ⟨_, denoteAll_zero_one⟩
  runs _ := rfl

/-- CPU 1 shares a list of level 3 with CPU 0, and none of level 2. -/
theorem cache_domains_exact_two_cpus : ∃ fuel s,
    initCacheDomains fuel cacheEnv (World.loaded twoCpus 1) = some (none, s) ∧
      s.world.InDomain .l3 cpu1 cpu0 ∧ ¬ s.world.InDomain .l2 cpu0 cpu1 := by
  obtain ⟨fuel, s, h⟩ :=
    initCacheDomains_returns unhindered_cacheFiles existing_cacheFiles (World.loaded twoCpus 1)
  have hexact := cache_domains_exact existing_cacheFiles (fun level c => by cases level <;> rfl) h
  refine ⟨fuel, s, h, (hexact.2.1 _ _ _).mpr ?_, fun hcon => ?_⟩
  · refine ⟨_, List.mem_cons_of_mem _ (List.mem_cons_of_mem _ List.mem_cons_self), lit "0-1\n",
      ⟨by decide +kernel, by decide +kernel⟩, ?_, ?_⟩
    · exact (names_iff_of_denoteAll denoteAll_zero_one _).mpr ⟨_, List.mem_cons_self, by decide⟩
    · exact (names_iff_of_denoteAll denoteAll_zero_one _).mpr ⟨_, List.mem_cons_self, by decide⟩
  · obtain ⟨e, he, content, hholds, -, hone⟩ := (hexact.2.1 _ _ _).mp hcon
    rcases holds_cacheFiles he hholds with ⟨-, rfl⟩ | ⟨hlevel, -⟩
    · obtain ⟨part, hpart, -, hle⟩ := (names_iff_of_denoteAll denoteAll_zero _).mp hone
      obtain rfl := List.mem_singleton.mp hpart
      exact absurd hle (by decide)
    · exact absurd hlevel (by decide)

end ScxGoland
