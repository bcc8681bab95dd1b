/-
Every operation on a dispatch queue is legal.

* `dsq_operations_legal` — if `goland_init` returns `0`, the queues created are
  all different; and whatever happens from then on, tasks are only inserted into
  queues that exist, CPUs only move from queues that exist, `cpu_to_dsq` never
  sees an invalid CPU, and no queue receives both FIFO and vtime insertions.
-/
import ScxGoland.Runs
import ScxGoland.Traces

namespace ScxGoland

variable {m : Machine}

theorem stepRacing_legal (hm : m.nrCpuIds ≤ maxCpus) {ro : Rodata} {w w' : World m}
    {l : Label m × (ℕ → Option (CpuMask m))} (hw : ∀ e ∈ w.log, e.Legal m)
    (h : stepRacing ro w l = some w') : ∀ e ∈ w'.log, e.Legal m := by
  obtain ⟨S, es, hes, hlegal, -⟩ : ∃ S, Orderly S w w' := by
    rcases stepRacing_cases h with ⟨env, cpu, prev, -, rfl⟩ | ⟨-, h⟩
    · exact ⟨∅, orderly_golandDispatch hm ro _ _ _ _ w⟩
    · exact ⟨_, orderly_step hm h⟩
  rw [hes]
  exact List.forall_mem_append.mpr ⟨hlegal, hw⟩

/-- Legal insertions into one queue are all FIFO insertions or all vtime
insertions. -/
theorem Insertion.Legal.isSome_vtime_eq {i j : Insertion} (hi : i.Legal m) (hj : j.Legal m)
    (h : i.dsq = j.dsq) : i.vtime.isSome = j.vtime.isSome := by
  rcases hi with ⟨c, hdsq, hv⟩ | ⟨hdsq, hv⟩ | ⟨id, -, hid, hdsq, hv⟩ <;>
  rcases hj with ⟨c', hdsq', hv'⟩ | ⟨hdsq', hv'⟩ | ⟨id', -, hid', hdsq', hv'⟩ <;>
  rw [hdsq, hdsq'] at h <;> simp_all

/-- **Every queue operation is legal**, for any number of CPUs, any tasks, any
samples in `@dispatched` and any affinity change. -/
theorem dsq_operations_legal (ro : Rodata) (ie : InitEnv m) (w₀ w₁ : World m)
    (hlog : w₀.log = []) (hinit : golandInit ie w₀ = (0, w₁)) :
    m.nrCpuIds ≤ maxCpus ∧ (dsqIds m).Nodup ∧ (∀ id ∈ dsqIds m, (w₁.dsqs id).isSome) ∧
    ∀ ls w, Runs.run (stepRacing ro) w₁ ls = some w →
      (∀ i, .inserted i ∈ w.log →
        (∃ id ∈ dsqIds m, i.dsq = .user id) ∨ ∃ c : Cpu m, i.dsq = .localOn c.toS32) ∧
      (∀ cpu dsq found, .moveToLocal cpu dsq found ∈ w.log → dsq ∈ dsqIds m) ∧
      (∀ cpu, .error (invalidCpuMsg cpu) ∉ w.log) ∧
      ∀ i j, .inserted i ∈ w.log → .inserted j ∈ w.log → i.dsq = j.dsq →
        i.vtime.isSome = j.vtime.isSome := by
  obtain ⟨hm, hnodup, hcreated, bss, dsqs, hw₁⟩ := golandInit_creates hinit
  refine ⟨hm, hnodup, fun id hid => (hcreated id).mpr (Or.inr hid), fun ls w hrun => ?_⟩
  have hlegal : ∀ e ∈ w.log, e.Legal m := by
    have hinit₁ : ∀ e ∈ w₁.log, e.Legal m := by
      rw [hw₁]
      dsimp only
      rw [hlog]
      simp
    exact Runs.invariant (I := fun w : World m => ∀ e ∈ w.log, e.Legal m) hinit₁
      (fun _ _ _ hw hstep => stepRacing_legal hm hw hstep) ls w (Runs.visits_of_run hrun)
  refine ⟨fun i hi => ?_, fun cpu dsq found h => hlegal _ h, fun cpu h => hlegal _ h cpu rfl,
    fun i j hi hj => Insertion.Legal.isSome_vtime_eq (hlegal _ hi) (hlegal _ hj)⟩
  rcases hlegal _ hi with ⟨c, hdsq, -⟩ | ⟨hdsq, -⟩ | ⟨id, hid, -, hdsq, -⟩
  · exact Or.inr ⟨c, hdsq⟩
  · exact Or.inl ⟨schedDsq, List.mem_append_right _ (by simp), hdsq⟩
  · exact Or.inl ⟨id, hid, hdsq⟩

/-- A record for CPU `-5` is bounced to `SHARED_DSQ`, and nothing illegal happens. -/
theorem dsq_operations_legal_negative_cpu :
    let ro : Rodata := { plainRodata with builtinIdle := true }
    let tasks := (TaskTable.empty twoCpus).set (plainTask 7)
    let data := fastEncode ⟨7, -5, 0, 5000000, 42, 0⟩
    let ls : List (Label twoCpus × (ℕ → Option (CpuMask twoCpus))) :=
      [(.push data, fun _ => none), (.dispatch (Env.lowest cpu0) cpu0 none, fun _ => none)]
    ∃ w, Runs.run (stepRacing ro) (startedWorld tasks) ls = some w ∧
      .inserted ⟨7, .user sharedDsq, 5000000, some 42, 0⟩ ∈ w.log ∧
      ∀ cpu, .error (invalidCpuMsg cpu) ∉ w.log := by
  intro ro tasks data ls
  refine ⟨_, rfl, by decide, ?_⟩
  exact ((dsq_operations_legal ro plainInit (bareWorld tasks) (startedWorld tasks) rfl
    (golandInit_bareWorld tasks)).2.2.2 ls _ rfl).2.2.1

end ScxGoland
