/-
Runs of partial labelled step functions.

A system is a partial step function `step : σ → ℓ → Option σ`: `step s l` is the
state after the step `l`, or `none` where `l` is not enabled in `s`.  A run
follows a list of labels (`run`); the states it passes through are `Visits`,
the steps it makes are `Takes`.

* `invariant` — what holds initially and is kept by every step holds in every
  state of every run;
* `invariant_of_guarded` — the same for the runs all of whose steps meet a
  guard `C`;
* `visits_iff_takes` — if, from states of the invariant, a step keeps the
  invariant when it meets `C` and breaks `P` at once when it does not, then `P`
  holds all along a run exactly when every step of the run meets `C`;
* `guard_of_check` — a decidable guard can be evaluated along a concrete run;
* `flag_iff` — a flag that steps raise and clear is set iff it has been raised
  since it was last cleared;
* `reaches_of_countdown` — a goal that a rank counts down to, step by step of one
  party and whatever the others do, is reached;
* `invariant_outputs` — an invariant of the state and of what the steps have put out
  so far;
* `outputs_conserved` — what the steps of a run put out, and what is still in
  transit, is what they took in, in order.
-/
import Mathlib.Data.List.Induction
import Mathlib.Tactic.Push

namespace Runs

variable {σ ℓ : Type*} {step : σ → ℓ → Option σ}

/-- The state reached from `s` by the labels `ls`, if they are all enabled. -/
def run (step : σ → ℓ → Option σ) (s : σ) : List ℓ → Option σ
  | [] => some s
  | l :: ls => (step s l).bind fun s' => run step s' ls

/-- `s` is one of the states that the run `ls` from `s₀` passes through, its
first and its last included. -/
def Visits (step : σ → ℓ → Option σ) (s₀ : σ) (ls : List ℓ) (s : σ) : Prop :=
  ∃ pre, pre <+: ls ∧ run step s₀ pre = some s

/-- The run `ls` from `s₀` makes the step `l` in the state `s`. -/
def Takes (step : σ → ℓ → Option σ) (s₀ : σ) (ls : List ℓ) (s : σ) (l : ℓ) : Prop :=
  ∃ pre, pre ++ [l] <+: ls ∧ run step s₀ pre = some s ∧ (step s l).isSome

@[simp] theorem run_nil (s : σ) : run step s [] = some s := rfl

@[simp] theorem run_cons (s : σ) (l : ℓ) (ls : List ℓ) :
    run step s (l :: ls) = (step s l).bind fun s' => run step s' ls := rfl

theorem run_append (s : σ) (ls ls' : List ℓ) :
    run step s (ls ++ ls') = (run step s ls).bind fun s' => run step s' ls' := by
  induction ls generalizing s with
  | nil => rfl
  | cons l ls ih =>
    rw [List.cons_append, run_cons, run_cons, Option.bind_assoc]
    exact congrArg _ (funext fun s' => ih s')

/-- The last step of a run, split off. -/
theorem run_concat_eq_some {s s' : σ} {ls : List ℓ} {l : ℓ} :
    run step s (ls ++ [l]) = some s' ↔
      ∃ t, run step s ls = some t ∧ step t l = some s' := by
  rw [run_append, Option.bind_eq_some_iff]
  simp only [run_cons, run_nil, Option.bind_fun_some]

/-- **Guarded invariants**: what holds initially and is kept by every step that
meets the guard holds in every state of a run whose steps all meet it. -/
theorem invariant_of_guarded {I : σ → Prop} {C : σ → ℓ → Prop} {s₀ : σ} {ls : List ℓ}
    (init : I s₀)
    (keep : ∀ s l s', I s → C s l → step s l = some s' → I s')
    (guard : ∀ s l, Takes step s₀ ls s l → C s l) :
    ∀ s, Visits step s₀ ls s → I s := by
  rintro s ⟨pre, hpre, hrun⟩
  -- Induction on the prefix, from its end: the last step is a step of the run.
  induction pre using List.reverseRecOn generalizing s with
  | nil =>
    rw [run_nil, Option.some_inj] at hrun
    exact hrun ▸ init
  | append_singleton pre l ih =>
    obtain ⟨t, ht, hstep⟩ := run_concat_eq_some.mp hrun
    have hI : I t := ih t ((List.prefix_append pre [l]).trans hpre) ht
    exact keep t l s hI (guard t l ⟨pre, hpre, ht, by rw [hstep]; rfl⟩) hstep

/-- **Invariants**: what holds initially and is kept by every step holds in
every state of every run. -/
theorem invariant {I : σ → Prop} {s₀ : σ} (init : I s₀)
    (keep : ∀ s l s', I s → step s l = some s' → I s') (ls : List ℓ) :
    ∀ s, Visits step s₀ ls s → I s :=
  invariant_of_guarded (C := fun _ _ => True) init
    (fun s l s' h _ hs => keep s l s' h hs) (fun _ _ _ => trivial)

theorem visits_of_run {s₀ s : σ} {ls : List ℓ} (h : run step s₀ ls = some s) :
    Visits step s₀ ls s := ⟨ls, List.prefix_refl ls, h⟩

/-- The state after a step of the run is a state of the run. -/
theorem Takes.visits {s₀ s s' : σ} {ls : List ℓ} {l : ℓ}
    (h : Takes step s₀ ls s l) (hs : step s l = some s') : Visits step s₀ ls s' := by
  obtain ⟨pre, hpre, hrun, -⟩ := h
  exact ⟨pre ++ [l], hpre, run_concat_eq_some.mpr ⟨s, hrun, hs⟩⟩

theorem Takes.mem {s₀ s : σ} {ls : List ℓ} {l : ℓ} (h : Takes step s₀ ls s l) : l ∈ ls := by
  obtain ⟨pre, hpre, -⟩ := h
  exact hpre.subset (List.mem_append_right pre List.mem_cons_self)

/-- The steps of a run are its first one, if enabled, and those of the rest. -/
theorem takes_cons {s₀ s : σ} {l k : ℓ} {ls : List ℓ} (h : Takes step s₀ (k :: ls) s l) :
    (s = s₀ ∧ l = k) ∨ ∃ s₁, step s₀ k = some s₁ ∧ Takes step s₁ ls s l := by
  obtain ⟨pre, hpre, hrun, hen⟩ := h
  cases pre with
  | nil =>
    rw [run_nil, Option.some_inj] at hrun
    obtain ⟨rest, hrest⟩ := hpre
    exact Or.inl ⟨hrun.symm, (List.cons.inj hrest).1⟩
  | cons k' pre =>
    obtain ⟨rest, hrest⟩ := hpre
    obtain ⟨rfl, htail⟩ := List.cons.inj hrest
    rw [run_cons, Option.bind_eq_some_iff] at hrun
    obtain ⟨s₁, hs₁, hrun⟩ := hrun
    exact Or.inr ⟨s₁, hs₁, pre, ⟨rest, htail⟩, hrun, hen⟩

/-- Evaluate a guard along a run. -/
def check (step : σ → ℓ → Option σ) (guard : σ → ℓ → Bool) (s : σ) : List ℓ → Bool
  | [] => true
  | l :: ls => guard s l && match step s l with
    | none => true
    | some s' => check step guard s' ls

theorem guard_of_check {guard : σ → ℓ → Bool} {s₀ : σ} {ls : List ℓ}
    (h : check step guard s₀ ls = true) :
    ∀ s l, Takes step s₀ ls s l → guard s l = true := by
  induction ls generalizing s₀ with
  | nil =>
    rintro s l ⟨pre, hpre, -, -⟩
    exact absurd (List.prefix_nil.mp hpre) (by simp)
  | cons k ls ih =>
    intro s l htake
    rw [check, Bool.and_eq_true] at h
    rcases takes_cons htake with ⟨rfl, rfl⟩ | ⟨s₁, hs₁, htake⟩
    · exact h.1
    · have hrest := h.2
      rw [hs₁] at hrest
      exact ih hrest s l htake

/-- A run that breaks the guard has a first step that does, and all steps
before it meet the guard. -/
theorem exists_first_unguarded {C : σ → ℓ → Prop} {s₀ : σ} {ls : List ℓ}
    (h : ∃ s l, Takes step s₀ ls s l ∧ ¬ C s l) :
    ∃ pre s l, pre ++ [l] <+: ls ∧ run step s₀ pre = some s ∧ (step s l).isSome ∧
      ¬ C s l ∧ ∀ t k, Takes step s₀ pre t k → C t k := by
  obtain ⟨s, l, ⟨pre, hpre, hrun, hen⟩, hC⟩ := h
  -- Strong induction on the length of the prefix before the offending step.
  induction hn : pre.length using Nat.strongRecOn generalizing pre s l with
  | _ n ih =>
    by_cases hall : ∀ t k, Takes step s₀ pre t k → C t k
    · exact ⟨pre, s, l, hpre, hrun, hen, hC, hall⟩
    · push Not at hall
      obtain ⟨t, k, ⟨pre', hpre', hrun', hen'⟩, hC'⟩ := hall
      have hlen : pre'.length < n := by
        have := hpre'.length_le
        rw [List.length_append, List.length_singleton] at this
        omega
      exact ih pre'.length hlen t k hC' pre'
        (hpre'.trans ((List.prefix_append pre [l]).trans hpre)) hrun' hen' rfl

theorem Takes.mono {s₀ s : σ} {ls ls' : List ℓ} {l : ℓ} (h : Takes step s₀ ls s l)
    (hls : ls <+: ls') : Takes step s₀ ls' s l := by
  obtain ⟨pre, hpre, hrun, hen⟩ := h
  exact ⟨pre, hpre.trans hls, hrun, hen⟩

/-- **Exact step conditions**, in runs whose states all satisfy `H`.  `I` implies
`P`; a step from `I` that meets `C` keeps `I`, one that does not breaks `P` at
once.  Then `P` holds in every state of the run iff every step meets `C`. -/
theorem visits_iff_takes_of {I P H : σ → Prop} {C : σ → ℓ → Prop} {s₀ : σ} {ls : List ℓ}
    (hH : ∀ s, Visits step s₀ ls s → H s) (init : I s₀) (sound : ∀ s, I s → P s)
    (keep : ∀ s l s', I s → C s l → step s l = some s' → H s' → I s')
    (breaks : ∀ s l s', I s → ¬ C s l → step s l = some s' → ¬ P s') :
    (∀ s, Visits step s₀ ls s → P s) ↔ ∀ s l, Takes step s₀ ls s l → C s l := by
  -- the states that the steps of `ls` lead to satisfy `H`
  have hguard : ∀ {ls' : List ℓ}, ls' <+: ls → (∀ s l, Takes step s₀ ls' s l → C s l) →
      ∀ s, Visits step s₀ ls' s → I s := by
    intro ls' hls' hC
    refine invariant_of_guarded (C := fun s l => C s l ∧ ∀ s', step s l = some s' → H s') init
      (fun s l s' hI hCH hs => keep s l s' hI hCH.1 hs (hCH.2 s' hs)) fun s l htake => ?_
    exact ⟨hC s l htake, fun s' hs => hH s' ((htake.mono hls').visits hs)⟩
  constructor
  · intro hP s l htake
    by_contra hC
    obtain ⟨pre, t, k, hpre, hrun, hen, hCt, hall⟩ := exists_first_unguarded ⟨s, l, htake, hC⟩
    have hI : I t := hguard ((List.prefix_append pre [k]).trans hpre) hall t (visits_of_run hrun)
    obtain ⟨t', ht'⟩ := Option.isSome_iff_exists.mp hen
    have htakes : Takes step s₀ ls t k := ⟨pre, hpre, hrun, hen⟩
    exact breaks t k t' hI hCt ht' (hP t' (htakes.visits ht'))
  · intro hC s hs
    exact sound s (hguard (List.prefix_refl ls) hC s hs)

/-- **Exact step conditions.**  `I` implies `P`; a step from `I` that meets
`C` keeps `I`, one that does not breaks `P` at once.  Then `P` holds in every
state of a run iff every step of the run meets `C`. -/
theorem visits_iff_takes {I P : σ → Prop} {C : σ → ℓ → Prop} {s₀ : σ} {ls : List ℓ}
    (init : I s₀) (sound : ∀ s, I s → P s)
    (keep : ∀ s l s', I s → C s l → step s l = some s' → I s')
    (breaks : ∀ s l s', I s → ¬ C s l → step s l = some s' → ¬ P s') :
    (∀ s, Visits step s₀ ls s → P s) ↔ ∀ s l, Takes step s₀ ls s l → C s l :=
  visits_iff_takes_of (H := fun _ => True) (fun _ _ => trivial) init sound
    (fun s l s' hI hC hs _ => keep s l s' hI hC hs) breaks

/-- **Counting down.**  Every step from `P` keeps `P` or reaches the goal `Q`, which is not
left again; the steps that `ticks` says lower the rank by one, and the others keep it.
Then a run with as many ticks as the rank at its start reaches the goal. -/
theorem reaches_of_countdown {P Q : σ → Prop} {C : ℓ → Prop} {rank : σ → ℕ} {ticks : ℓ → Bool}
    (hzero : ∀ s, P s → rank s = 0 → Q s) (hstay : ∀ s l s', Q s → step s l = some s' → Q s')
    (hstep : ∀ s l s', P s → rank s ≠ 0 → C l → step s l = some s' →
      Q s' ∨ (P s' ∧ rank s' + (if ticks l then 1 else 0) = rank s))
    {s₀ s : σ} {ls : List ℓ} (hinit : P s₀) (hC : ∀ l ∈ ls, C l)
    (hrun : run step s₀ ls = some s) (hticks : rank s₀ ≤ ls.countP ticks) : Q s := by
  have hinv : Q s ∨ (P s ∧ rank s + ls.countP ticks = rank s₀) := by
    clear hticks
    induction ls using List.reverseRecOn generalizing s with
    | nil =>
      rw [run_nil, Option.some_inj] at hrun
      subst hrun
      exact Or.inr ⟨hinit, rfl⟩
    | append_singleton ls l ih =>
      obtain ⟨t, ht, hl⟩ := run_concat_eq_some.mp hrun
      rcases ih (fun k hk => hC k (List.mem_append_left _ hk)) ht with hQ | ⟨hP, hrank⟩
      · exact Or.inl (hstay t l s hQ hl)
      by_cases hnone : rank t = 0
      · exact Or.inl (hstay t l s (hzero t hP hnone) hl)
      rcases hstep t l s hP hnone (hC l (by simp)) hl with hQ | ⟨hP', hdown⟩
      · exact Or.inl hQ
      · refine Or.inr ⟨hP', ?_⟩
        rw [List.countP_append, List.countP_singleton]
        omega
  rcases hinv with hQ | ⟨hP, hrank⟩
  · exact hQ
  · exact hzero s hP (by omega)

/-! ### Outputs -/

section Outputs

variable {α : Type*}

/-- What the steps of a run put out, in order. -/
def outputs (step : σ → ℓ → Option σ) (out : σ → ℓ → List α) (s : σ) : List ℓ → List α
  | [] => []
  | l :: ls => out s l ++ ((step s l).map fun s' => outputs step out s' ls).getD []

theorem outputs_concat {out : σ → ℓ → List α} {s t : σ} {ls : List ℓ} (l : ℓ)
    (hrun : run step s ls = some t) :
    outputs step out s (ls ++ [l]) = outputs step out s ls ++ out t l := by
  induction ls generalizing s with
  | nil =>
    rw [run_nil, Option.some_inj] at hrun
    subst hrun
    rw [List.nil_append, outputs, outputs, List.nil_append]
    cases step s l with
    | none => exact List.append_nil _
    | some s' => exact List.append_nil _
  | cons k ls ih =>
    rw [run_cons, Option.bind_eq_some_iff] at hrun
    obtain ⟨s', hs', hrun⟩ := hrun
    rw [List.cons_append, outputs, outputs, hs', Option.map_some, Option.map_some, Option.getD_some,
      Option.getD_some, ih hrun, List.append_assoc]

/-- An output of a run is one of a step that the run takes. -/
theorem exists_takes_of_mem_outputs {out : σ → ℓ → List α} {s t : σ} {ls : List ℓ} {a : α}
    (hrun : run step s ls = some t) (ha : a ∈ outputs step out s ls) :
    ∃ u l, Takes step s ls u l ∧ a ∈ out u l := by
  induction ls using List.reverseRecOn generalizing t with
  | nil => exact absurd ha (by simp [outputs])
  | append_singleton ls l ih =>
    obtain ⟨u, hu, hl⟩ := run_concat_eq_some.mp hrun
    rw [outputs_concat l hu, List.mem_append] at ha
    rcases ha with ha | ha
    · obtain ⟨v, k, hk, hmem⟩ := ih hu ha
      exact ⟨v, k, hk.mono (List.prefix_append ls [l]), hmem⟩
    · exact ⟨u, l, ⟨ls, List.prefix_refl _, hu, by rw [hl]; rfl⟩, ha⟩

/-- **Invariants with outputs**: what holds initially, of no outputs, and is kept by every
step with its outputs holds at the end of every run. -/
theorem invariant_outputs {out : σ → ℓ → List α} {I : List α → σ → Prop} {s₀ s : σ} {ls : List ℓ}
    (init : I [] s₀) (keep : ∀ os t l t', I os t → step t l = some t' → I (os ++ out t l) t')
    (hrun : run step s₀ ls = some s) : I (outputs step out s₀ ls) s := by
  induction ls using List.reverseRecOn generalizing s with
  | nil =>
    rw [run_nil, Option.some_inj] at hrun
    exact hrun ▸ init
  | append_singleton ls l ih =>
    obtain ⟨t, ht, hl⟩ := run_concat_eq_some.mp hrun
    rw [outputs_concat l ht]
    exact keep _ t l s (ih ht) hl

/-- **Conservation.**  Every step appends what it takes in to what is in transit, and
puts out a first part of the result.  Then the outputs of a run, followed by what
is still in transit, are what was in transit at first, followed by the inputs. -/
theorem outputs_conserved {out inp : σ → ℓ → List α} {transit : σ → List α} {s₀ s : σ}
    {ls : List ℓ} (hstep : ∀ t l t', step t l = some t' →
      out t l ++ transit t' = transit t ++ inp t l) (hrun : run step s₀ ls = some s) :
    outputs step out s₀ ls ++ transit s = transit s₀ ++ outputs step inp s₀ ls := by
  induction ls using List.reverseRecOn generalizing s with
  | nil =>
    rw [run_nil, Option.some_inj] at hrun
    subst hrun
    exact (List.append_nil _).symm
  | append_singleton ls l ih =>
    obtain ⟨t, ht, hl⟩ := run_concat_eq_some.mp hrun
    rw [outputs_concat l ht, outputs_concat l ht, List.append_assoc, hstep t l s hl,
      ← List.append_assoc, ih ht, List.append_assoc]

end Outputs

end Runs
