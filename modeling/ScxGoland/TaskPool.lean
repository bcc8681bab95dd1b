/-
The task pool of the user-space scheduler.

`taskPool` is a ring of `taskPoolSize` slots; the live ones, from
`taskPoolHead` to `taskPoolTail`, are kept sorted.  `InsertTaskToPool` searches
its place from the head, moves the slots behind it up by one, from the tail
downwards, and writes the gap.

* `insertTaskToPool_spec`, `getTaskFromPool_spec`, `drainQueuedTask_spec` — one
  specification for each operation, over the list `held` of the tasks inserted
  and not yet taken (`PoolInv`);
* `pool_refines_sorted_queue` — after any sequence of operations the pool is the
  stable sort of `held`.
-/
import ScxGoland.Records
import ScxGoland.Runs
import ScxGoland.SortedRing
import Mathlib.Data.Prod.Lex

open Runs SortedRing

namespace ScxGoland

/-! ### The code -/

def sliceNsDefault : UInt64 := 5000 * 1000
def taskPoolSize : ℕ := 4096

structure Task where
  queuedTask : QueuedTask
  deadline : UInt64
  timestamp : UInt64
deriving DecidableEq, Inhabited

/-- The variables `taskPool`, `taskPoolHead`, `taskPoolTail` and
`taskPoolCount`. -/
structure Pool where
  slots : ℕ → Task
  head : ℕ
  tail : ℕ
  count : ℤ

def Pool.empty : Pool := ⟨fun _ => default, 0, 0, 0⟩

def lessQueuedTask (a b : Task) : Bool :=
  if a.deadline ≠ b.deadline then decide (a.deadline < b.deadline)
  else if a.timestamp ≠ b.timestamp then decide (a.timestamp < b.timestamp)
  else decide (a.queuedTask.pid < b.queuedTask.pid)

/-- The first loop of `InsertTaskToPool`, at its `i`-th iteration with `n` more
to go: the index of the first task that the new one has to precede. -/
def searchIdx (newTask : Task) (p : Pool) (i : ℕ) : ℕ → ℕ
  | 0 => p.tail
  | n + 1 =>
    let idx := (p.head + i) % taskPoolSize
    if lessQueuedTask newTask (p.slots idx) then idx else searchIdx newTask p (i + 1) n

/-- The second loop of `InsertTaskToPool`, for at most `n` iterations: `cur`
runs backwards from the tail to `insertIdx`, each slot receiving its
predecessor.  Returns the last `cur` and the slots. -/
def shiftSlots (insertIdx : ℕ) : ℕ → ℕ → (ℕ → Task) → ℕ × (ℕ → Task)
  | 0, cur, slots => (cur, slots)
  | n + 1, cur, slots =>
    if cur = insertIdx then (cur, slots)
    else
      -- `(cur - 1 + taskPoolSize) % taskPoolSize`, over natural numbers
      let next := (cur + taskPoolSize - 1) % taskPoolSize
      shiftSlots insertIdx n next (Function.update slots cur (slots next))

def insertTaskToPool (newTask : Task) (p : Pool) : Bool × Pool :=
  if (taskPoolSize : ℤ) - 1 ≤ p.count then (false, p)
  else
    let insertIdx := searchIdx newTask p 0 p.count.toNat
    let shifted := shiftSlots insertIdx taskPoolSize p.tail p.slots
    (true, {
      slots := Function.update shifted.2 insertIdx newTask
      head := p.head
      tail := (p.tail + 1) % taskPoolSize
      count := p.count + 1 })

/-- `GetTaskFromPool`; `none` is the `nil` pointer. -/
def getTaskFromPool (p : Pool) : Option QueuedTask × Pool :=
  if p.head = p.tail then (none, p)
  else (some (p.slots p.head).queuedTask,
    { p with head := (p.head + 1) % taskPoolSize, count := p.count - 1 })

def saturatingSub (a b : UInt64) : UInt64 := if b < a then a - b else 0

/-- The pool and `minVruntime`. -/
structure UserState where
  pool : Pool
  minVruntime : UInt64

/-- `updatedEnqueueTask`: the task with its new vtime, its deadline and the new
`minVruntime`; `none` where the division by `t.Weight` panics. -/
def updatedEnqueueTask (minVruntime : UInt64) (t : QueuedTask) :
    Option (QueuedTask × UInt64 × UInt64) :=
  let minVruntime := if minVruntime < t.vtime then t.vtime else minVruntime
  let minVruntimeLocal := saturatingSub minVruntime sliceNsDefault
  let vtime :=
    if t.vtime = 0 then
      if t.weight = 0 then none
      else some (minVruntimeLocal + sliceNsDefault * 100 / t.weight)
    else if t.vtime < minVruntimeLocal then some minVruntimeLocal
    else some t.vtime
  vtime.map fun v =>
    let v := v + (t.stopTs - t.startTs) * t.weight / 100
    ({ t with vtime := v }, v + min t.sumExecRuntime (sliceNsDefault * 100), minVruntime)

/-- The body of the loop of `DrainQueuedTask` for a task that was dequeued: the
task inserted, the result of the insertion (which the code ignores) and the new
state. -/
def drainOne (t : QueuedTask) (s : UserState) : Option (Task × Bool × UserState) :=
  (updatedEnqueueTask s.minVruntime t).map fun r =>
    let task : Task := ⟨r.1, r.2.1, 0⟩
    let ins := insertTaskToPool task s.pool
    (task, ins.1, ⟨ins.2, r.2.2⟩)

/-- The condition under which the loop of `DrainQueuedTask` goes on. -/
def Pool.hasRoom (p : Pool) : Prop := (p.tail + 1) % taskPoolSize ≠ p.head

instance (p : Pool) : Decidable p.hasRoom := inferInstanceAs (Decidable (_ ≠ _))

/-- The outcome of `DrainQueuedTask`: its result, and its calls of
`InsertTaskToPool` with theirs. -/
structure Drain where
  num : ℕ
  inserts : List (Task × Bool)
  state : UserState

/-- `DrainQueuedTask`, where successive calls of `DequeueTask` yield the tasks of
the list (`Pid` may be `-1` in any of them) and find the queue empty after it. -/
def drainQueuedTask (count : ℕ) (s : UserState) : List QueuedTask → Option Drain
  | [] => some ⟨if s.pool.hasRoom then count else 0, [], s⟩
  | t :: ts =>
    if s.pool.hasRoom then
      if t.pid = -1 then some ⟨count, [], s⟩
      else
        (drainOne t s).bind fun r =>
          (drainQueuedTask (count + 1) r.2.2 ts).map fun d =>
            { d with inserts := (r.1, r.2.1) :: d.inserts }
    else some ⟨0, [], s⟩

/-! ### The order of the pool -/

/-- Deadline, timestamp and pid, compared in this order. -/
def taskKey (t : Task) : ℕ ×ₗ ℕ ×ₗ ℤ :=
  toLex (t.deadline.toNat, toLex (t.timestamp.toNat, t.queuedTask.pid.toInt))

theorem lessQueuedTask_iff (a b : Task) : lessQueuedTask a b = true ↔ taskKey a < taskKey b := by
  rw [lessQueuedTask, taskKey, taskKey, Prod.Lex.toLex_lt_toLex, Prod.Lex.toLex_lt_toLex]
  dsimp only
  split_ifs with hd ht
  · have hne : a.deadline.toNat ≠ b.deadline.toNat := fun h => hd (UInt64.toNat_inj.mp h)
    simp [UInt64.lt_iff_toNat_lt, hne]
  · have hd' : a.deadline = b.deadline := not_not.mp hd
    have hne : a.timestamp.toNat ≠ b.timestamp.toNat := fun h => ht (UInt64.toNat_inj.mp h)
    simp [UInt64.lt_iff_toNat_lt, hd', hne]
  · have hd' : a.deadline = b.deadline := not_not.mp hd
    have ht' : a.timestamp = b.timestamp := not_not.mp ht
    simp [Int32.lt_iff_toInt_lt, hd', ht']

/-! ### The live slots -/

/-- How many slots lie between head and tail. -/
def Pool.span (p : Pool) : ℕ := (((p.tail : ℤ) - p.head) % taskPoolSize).toNat

/-- The live slots, read from head to tail. -/
def Pool.live (p : Pool) : List Task := window taskPoolSize p.slots p.head p.span

/-- The pool holds the tasks `held`, in insertion order: its indices are in
range, its counter is right, and its live slots are the stable sort of
`held`. -/
structure PoolInv (p : Pool) (held : List Task) : Prop where
  head_lt : p.head < taskPoolSize
  length_lt : held.length < taskPoolSize
  tail_eq : p.tail = slot taskPoolSize p.head held.length
  count_eq : p.count = held.length
  sorted : StablySorted taskKey held p.live

namespace PoolInv

variable {p : Pool} {held : List Task}

theorem empty : PoolInv Pool.empty [] :=
  ⟨by decide, by decide, by decide, rfl, StablySorted.nil⟩

theorem sub_eq (h : PoolInv p held) :
    ((p.tail : ℤ) - p.head) % taskPoolSize = held.length := by
  rw [h.tail_eq]
  exact slot_sub h.length_lt

theorem span_eq (h : PoolInv p held) : p.span = held.length := by
  rw [Pool.span, h.sub_eq]
  rfl

theorem live_eq (h : PoolInv p held) :
    p.live = window taskPoolSize p.slots p.head held.length := by
  rw [Pool.live, h.span_eq]

/-- Both tests for an empty pool agree. -/
theorem head_eq_tail_iff (h : PoolInv p held) : p.head = p.tail ↔ held = [] := by
  rw [h.tail_eq, ← List.length_eq_zero_iff]
  constructor
  · intro heq
    have hzero : slot taskPoolSize p.head 0 = slot taskPoolSize p.head held.length := by
      rw [slot_zero h.head_lt]
      exact heq
    exact (slot_injOn (by decide) h.length_lt hzero).symm
  · intro heq
    rw [heq, slot_zero h.head_lt]

/-- Both tests for a full pool agree. -/
theorem hasRoom_iff (h : PoolInv p held) : p.hasRoom ↔ held.length ≠ taskPoolSize - 1 := by
  have htail : (p.tail + 1) % taskPoolSize = slot taskPoolSize p.head (held.length + 1) := by
    rw [h.tail_eq]
    exact slot_slot_succ p.head held.length
  rw [Pool.hasRoom, htail, not_iff_not]
  have hlt := h.length_lt
  constructor
  · intro heq
    by_contra hne
    have hzero : slot taskPoolSize p.head (held.length + 1) = slot taskPoolSize p.head 0 := by
      rw [heq, slot_zero h.head_lt]
    have := slot_injOn (by omega) (by decide) hzero
    omega
  · intro heq
    rw [heq, slot, show taskPoolSize - 1 + 1 = taskPoolSize from rfl, Nat.add_mod_right]
    exact Nat.mod_eq_of_lt h.head_lt

end PoolInv

/-! ### Insertion -/

/-- The search stops at the place `j` of the first task with a larger key, or at
the tail. -/
theorem searchIdx_spec (newTask : Task) (p : Pool) {k : ℕ}
    (htail : p.tail = slot taskPoolSize p.head k) (i n : ℕ) (hk : i + n = k) :
    ∃ j, i ≤ j ∧ j ≤ k ∧ searchIdx newTask p i n = slot taskPoolSize p.head j ∧
      (∀ i', i ≤ i' → i' < j →
        ¬ taskKey newTask < taskKey (p.slots (slot taskPoolSize p.head i'))) ∧
      (j < k → taskKey newTask < taskKey (p.slots (slot taskPoolSize p.head j))) := by
  induction n generalizing i with
  | zero =>
    refine ⟨k, by omega, le_refl k, htail, ?_, ?_⟩
    · intro i' hi hi'
      omega
    · intro h
      exact absurd h (lt_irrefl k)
  | succ n ih =>
    rw [searchIdx]
    by_cases hless : lessQueuedTask newTask (p.slots ((p.head + i) % taskPoolSize)) = true
    · refine ⟨i, le_refl i, by omega, by rw [if_pos hless]; rfl, ?_, ?_⟩
      · intro i' hi hi'
        omega
      · intro _
        exact (lessQueuedTask_iff _ _).mp hless
    · obtain ⟨j, hij, hjk, hres, hlow, hat⟩ := ih (i + 1) (by omega)
      refine ⟨j, by omega, hjk, by rw [if_neg hless]; exact hres, ?_, hat⟩
      intro i' hi hi'
      rcases Nat.eq_or_lt_of_le hi with rfl | hi
      · rw [lessQueuedTask_iff] at hless
        exact hless
      · exact hlow i' hi hi'

/-- Started `d` places behind `insertIdx`, the loop ends there after `d`
iterations; the slots passed hold their predecessors, all others are as
before. -/
theorem shiftSlots_spec {h j : ℕ} (d n : ℕ) (hd : d ≤ n) (hlt : j + d < taskPoolSize)
    (slots : ℕ → Task) :
    ∃ slots', shiftSlots (slot taskPoolSize h j) n (slot taskPoolSize h (j + d)) slots =
        (slot taskPoolSize h j, slots') ∧
      (∀ i, i < taskPoolSize → i ≤ j ∨ j + d < i →
        slots' (slot taskPoolSize h i) = slots (slot taskPoolSize h i)) ∧
      (∀ i, j ≤ i → i < j + d →
        slots' (slot taskPoolSize h (i + 1)) = slots (slot taskPoolSize h i)) := by
  -- induction on the distance: the first iteration fills the slot at the far end
  induction d generalizing n slots with
  | zero =>
    refine ⟨slots, ?_, fun _ _ _ => rfl, fun i hi hi' => absurd hi' (by omega)⟩
    cases n with
    | zero => rfl
    | succ n => rw [shiftSlots, Nat.add_zero, if_pos rfl]
  | succ d ih =>
    obtain ⟨n, rfl⟩ : ∃ n', n = n' + 1 := ⟨n - 1, by omega⟩
    have hne : slot taskPoolSize h (j + (d + 1)) ≠ slot taskPoolSize h j := by
      intro heq
      have := slot_injOn hlt (by omega) heq
      omega
    have hnext : (slot taskPoolSize h (j + (d + 1)) + taskPoolSize - 1) % taskPoolSize =
        slot taskPoolSize h (j + d) := slot_pred h (j + d) (by decide)
    set moved := Function.update slots (slot taskPoolSize h (j + (d + 1)))
      (slots (slot taskPoolSize h (j + d))) with hmoved
    obtain ⟨slots', hres, hsame, hup⟩ := ih n (by omega) (by omega) moved
    -- slots other than the far end are not touched by this iteration
    have hother : ∀ i, i < taskPoolSize → i ≠ j + (d + 1) →
        moved (slot taskPoolSize h i) = slots (slot taskPoolSize h i) := by
      intro i hi hne
      rw [hmoved, Function.update_of_ne]
      exact fun heq => hne (slot_injOn hi hlt heq)
    refine ⟨slots', ?_, ?_, ?_⟩
    · rw [shiftSlots, if_neg hne]
      dsimp only
      rw [hnext]
      exact hres
    · intro i hi hij
      rw [hsame i hi (by omega), hother i hi (by omega)]
    · intro i hi hi'
      rcases Nat.lt_succ_iff_lt_or_eq.mp (show i < (j + d) + 1 by omega) with hlt' | rfl
      · rw [hup i hi hlt', hother i (by omega) (by omega)]
      · rw [hsame (j + d + 1) (by omega) (by omega), hmoved]
        exact Function.update_self _ _ _

/-- What the two loops and the write after them leave in the slots: the live
tasks with the new one inserted behind those of its key. -/
theorem insert_window {p : Pool} {held : List Task} (h : PoolInv p held) (newTask : Task)
    (hlen : held.length < taskPoolSize - 1) :
    ∃ slots, (insertTaskToPool newTask p).2 =
        ⟨slots, p.head, (p.tail + 1) % taskPoolSize, p.count + 1⟩ ∧
      window taskPoolSize slots p.head (held.length + 1) =
        SortedRing.insert taskKey newTask p.live := by
  have hnotfull : ¬ (taskPoolSize : ℤ) - 1 ≤ p.count := by
    rw [h.count_eq]
    omega
  -- the place `j` found by the search, and the slots after the shift
  obtain ⟨j, -, hjk, hidx, hlow, hat⟩ := searchIdx_spec newTask p h.tail_eq 0 held.length
    (Nat.zero_add _)
  obtain ⟨slots', hshift, hsame, hup⟩ := shiftSlots_spec (h := p.head) (j := j)
    (held.length - j) taskPoolSize (by omega) (by omega) p.slots
  rw [Nat.add_sub_cancel' hjk] at hshift hsame hup
  have hother : ∀ i, i < taskPoolSize → i ≠ j →
      Function.update slots' (slot taskPoolSize p.head j) newTask (slot taskPoolSize p.head i) =
        slots' (slot taskPoolSize p.head i) := by
    intro i hi hne
    exact Function.update_of_ne (fun heq => hne (slot_injOn hi (by omega) heq)) _ _
  refine ⟨Function.update slots' (slot taskPoolSize p.head j) newTask, ?_, ?_⟩
  · rw [insertTaskToPool, if_neg hnotfull, h.count_eq, Int.toNat_natCast, hidx, h.tail_eq]
    dsimp only
    rw [hshift]
  · rw [h.live_eq, window_insert (a := p.slots) (x := newTask) hjk]
    · refine (insert_eq_take_drop newTask ?_ ?_ ?_).symm
      · rw [window_length]
        exact hjk
      · intro i hi hij
        rw [window_getElem]
        exact hlow i (Nat.zero_le i) hij
      · intro hj
        rw [window_length] at hj
        rw [window_getElem]
        exact hat hj
    · intro i hi
      rw [hother i (by omega) (by omega), hsame i (by omega) (by omega)]
    · exact Function.update_self _ _ _
    · intro i hi hi'
      rw [hother (i + 1) (by omega) (by omega), hup i hi (by omega)]

/-- `InsertTaskToPool` fails exactly when `taskPoolSize - 1` tasks are held, and
then changes nothing; otherwise the new task is held last. -/
theorem insertTaskToPool_spec {p : Pool} {held : List Task} (h : PoolInv p held)
    (newTask : Task) :
    (held.length = taskPoolSize - 1 ∧ insertTaskToPool newTask p = (false, p)) ∨
    (held.length < taskPoolSize - 1 ∧ (insertTaskToPool newTask p).1 = true ∧
      PoolInv (insertTaskToPool newTask p).2 (held ++ [newTask])) := by
  have hlt := h.length_lt
  by_cases hfull : (taskPoolSize : ℤ) - 1 ≤ p.count
  · refine Or.inl ⟨?_, by rw [insertTaskToPool, if_pos hfull]⟩
    rw [h.count_eq] at hfull
    omega
  · have hlen : held.length < taskPoolSize - 1 := by
      rw [h.count_eq] at hfull
      omega
    refine Or.inr ⟨hlen, by rw [insertTaskToPool, if_neg hfull], ?_⟩
    obtain ⟨slots, hres, hwindow⟩ := insert_window h newTask hlen
    have hlength : (held ++ [newTask]).length = held.length + 1 := by simp
    have htail : (p.tail + 1) % taskPoolSize =
        slot taskPoolSize p.head (held ++ [newTask]).length := by
      rw [hlength, h.tail_eq]
      exact slot_slot_succ p.head held.length
    rw [hres]
    refine ⟨h.head_lt, by omega, htail, ?_, ?_⟩
    · rw [hlength, h.count_eq]
      rfl
    · have hspan : Pool.span ⟨slots, p.head, (p.tail + 1) % taskPoolSize, p.count + 1⟩ =
          held.length + 1 := by
        rw [Pool.span, htail, slot_sub (by omega), hlength]
        rfl
      rw [Pool.live, hspan, hwindow]
      exact h.sorted.insert newTask

/-! ### Removal -/

/-- `GetTaskFromPool` returns `nil` exactly when nothing is held; otherwise it
takes the task at the head, which is a least one. -/
theorem getTaskFromPool_spec {p : Pool} {held : List Task} (h : PoolInv p held) :
    (held = [] ∧ getTaskFromPool p = (none, p)) ∨
    (p.slots p.head ∈ held ∧ (∀ u ∈ held, taskKey (p.slots p.head) ≤ taskKey u) ∧
      (getTaskFromPool p).1 = some (p.slots p.head).queuedTask ∧
      PoolInv (getTaskFromPool p).2 (held.erase (p.slots p.head))) := by
  by_cases hempty : p.head = p.tail
  · exact Or.inl ⟨h.head_eq_tail_iff.mp hempty, by rw [getTaskFromPool, if_pos hempty]⟩
  · have hne : held ≠ [] := fun heq => hempty (h.head_eq_tail_iff.mpr heq)
    obtain ⟨k, hk⟩ : ∃ k, held.length = k + 1 :=
      ⟨held.length - 1, (Nat.succ_pred_eq_of_pos (List.length_pos_iff.mpr hne)).symm⟩
    have hlt := h.length_lt
    -- the first live slot, and the window behind it
    have hlive : p.live = p.slots p.head ::
        window taskPoolSize p.slots (slot taskPoolSize p.head 1) k := by
      rw [h.live_eq, hk, window_cons p.slots k h.head_lt]
    have hsorted := h.sorted
    rw [hlive] at hsorted
    have hmem : p.slots p.head ∈ held := hsorted.perm.mem_iff.mp List.mem_cons_self
    have hlength : (held.erase (p.slots p.head)).length = k := by
      rw [List.length_erase_of_mem hmem, hk]
      rfl
    have htail : p.tail = slot taskPoolSize (slot taskPoolSize p.head 1) k := by
      rw [slot_slot_one, ← hk]
      exact h.tail_eq
    refine Or.inr ⟨hmem, fun u hu => hsorted.le_of_mem hu, ?_, ?_⟩
    · rw [getTaskFromPool, if_neg hempty]
    · rw [getTaskFromPool, if_neg hempty]
      refine ⟨Nat.mod_lt _ (by decide), by omega, by rw [hlength]; exact htail, ?_, ?_⟩
      · show p.count - 1 = _
        rw [h.count_eq, hlength, hk]
        omega
      · have hspan : Pool.span { p with head := (p.head + 1) % taskPoolSize, count := p.count - 1 } =
            k := by
          show (((p.tail : ℤ) - (slot taskPoolSize p.head 1 : ℕ)) % taskPoolSize).toNat = k
          rw [htail, slot_sub (by omega)]
          rfl
        rw [Pool.live, hspan]
        exact hsorted.tail

/-! ### Draining -/

/-- A task apart from its vtime, which `updatedEnqueueTask` rewrites. -/
def QueuedTask.unstamped (t : QueuedTask) : QueuedTask := { t with vtime := 0 }

theorem QueuedTask.pid_eq_of_unstamped {t u : QueuedTask} (h : t.unstamped = u.unstamped) :
    t.pid = u.pid := by
  have hpid : t.unstamped.pid = u.unstamped.pid := by rw [h]
  exact hpid

/-- Where the loop of `DrainQueuedTask` goes on, the insertion succeeds. -/
theorem drainOne_spec {s s' : UserState} {held : List Task} {t : QueuedTask} {task : Task}
    {ok : Bool} (h : PoolInv s.pool held) (hroom : s.pool.hasRoom)
    (hone : drainOne t s = some (task, ok, s')) :
    ok = true ∧ task.queuedTask.unstamped = t.unstamped ∧ PoolInv s'.pool (held ++ [task]) := by
  obtain ⟨r, hr, heq⟩ := Option.map_eq_some_iff.mp hone
  simp only [Prod.mk.injEq] at heq
  obtain ⟨rfl, rfl, rfl⟩ := heq
  have hsame : r.1.unstamped = t.unstamped := by
    obtain ⟨v, -, rfl⟩ := Option.map_eq_some_iff.mp hr
    rfl
  rcases insertTaskToPool_spec h ⟨r.1, r.2.1, 0⟩ with ⟨hfull, -⟩ | ⟨-, hok, hinv⟩
  · exact absurd hfull (h.hasRoom_iff.mp hroom)
  · exact ⟨hok, hsame, hinv⟩

/-- The tasks that a drain takes when `held` tasks are in the pool: those before the first
one with `Pid = -1`, as long as the pool is not full. -/
def drainable (held : ℕ) (ts : List QueuedTask) : List QueuedTask :=
  (ts.takeWhile (·.pid ≠ -1)).take (taskPoolSize - 1 - held)

theorem drainable_of_pid {held : ℕ} {t : QueuedTask} (ts : List QueuedTask) (h : t.pid = -1) :
    drainable held (t :: ts) = [] := by
  rw [drainable, List.takeWhile_cons_of_neg (by simp [h]), List.take_nil]

theorem drainable_of_full {held : ℕ} (ts : List QueuedTask) (h : held = taskPoolSize - 1) :
    drainable held ts = [] := by
  rw [drainable, h, Nat.sub_self, List.take_zero]

theorem drainable_cons {held : ℕ} {t : QueuedTask} (ts : List QueuedTask) (hpid : t.pid ≠ -1)
    (hroom : held < taskPoolSize - 1) :
    drainable held (t :: ts) = t :: drainable (held + 1) ts := by
  rw [drainable, List.takeWhile_cons_of_pos (by simp [hpid]),
    show taskPoolSize - 1 - held = taskPoolSize - 1 - (held + 1) + 1 by omega, List.take_succ_cons]
  rfl

/-- A drain takes the tasks that it should; every insertion succeeds, and the drained
tasks are held last. -/
theorem drainQueuedTask_spec {held : List Task} {count : ℕ} {s : UserState}
    {ts : List QueuedTask} {d : Drain} (h : PoolInv s.pool held)
    (hd : drainQueuedTask count s ts = some d) :
    d.inserts.map (fun c => c.1.queuedTask.unstamped) =
        (drainable held.length ts).map QueuedTask.unstamped ∧
      (∀ c ∈ d.inserts, c.2 = true) ∧ PoolInv d.state.pool (held ++ d.inserts.map Prod.fst) := by
  induction ts generalizing held count s d with
  | nil =>
    obtain rfl := Option.some_inj.mp hd
    exact ⟨by simp [drainable], by simp, by simpa using h⟩
  | cons t ts ih =>
    rw [drainQueuedTask] at hd
    split_ifs at hd with hroom hpid
    · obtain rfl := Option.some_inj.mp hd
      rw [drainable_of_pid ts hpid]
      exact ⟨rfl, by simp, by simpa using h⟩
    · obtain ⟨⟨task, ok, s'⟩, hone, hrest⟩ := Option.bind_eq_some_iff.mp hd
      obtain ⟨d', hd', rfl⟩ := Option.map_eq_some_iff.mp hrest
      obtain ⟨rfl, hsame, hinv⟩ := drainOne_spec h hroom hone
      obtain ⟨htaken, hall, hinv'⟩ := ih hinv hd'
      have hlt : held.length < taskPoolSize - 1 := by
        have hlen := hinv.length_lt
        rw [List.length_append, List.length_singleton] at hlen
        omega
      refine ⟨?_, ?_, by simpa using hinv'⟩
      · rw [drainable_cons ts hpid hlt, List.map_cons, List.map_cons, htaken, List.length_append,
          List.length_singleton, hsame]
      · intro c hc
        rcases List.mem_cons.mp hc with rfl | hc
        · rfl
        · exact hall c hc
    · obtain rfl := Option.some_inj.mp hd
      have hfull : held.length = taskPoolSize - 1 :=
        not_not.mp fun hne => hroom (h.hasRoom_iff.mpr hne)
      rw [drainable_of_full _ hfull]
      exact ⟨rfl, by simp, by simpa using h⟩

/-! ### Runs -/

/-- The operations on the pool. -/
inductive PoolOp where
  | insert (t : Task)
  | get
  | drain (ts : List QueuedTask)

/-- The user state, and the tasks successfully inserted and not yet taken, in
the order of their insertion. -/
structure PoolSystem where
  user : UserState
  held : List Task

def PoolSystem.init : PoolSystem := ⟨⟨Pool.empty, 0⟩, []⟩

/-- One operation; `held` follows the results that the code returns. -/
def poolStep (s : PoolSystem) : PoolOp → Option PoolSystem
  | .insert t =>
    let r := insertTaskToPool t s.user.pool
    some ⟨{ s.user with pool := r.2 }, if r.1 then s.held ++ [t] else s.held⟩
  | .get =>
    let r := getTaskFromPool s.user.pool
    some ⟨{ s.user with pool := r.2 },
      if r.1.isSome then s.held.erase (s.user.pool.slots s.user.pool.head) else s.held⟩
  | .drain ts => (drainQueuedTask 0 s.user ts).map fun d =>
    ⟨d.state, s.held ++ (d.inserts.filter Prod.snd).map Prod.fst⟩

theorem poolInv_step (s : PoolSystem) (op : PoolOp) (s' : PoolSystem)
    (h : PoolInv s.user.pool s.held) (hstep : poolStep s op = some s') :
    PoolInv s'.user.pool s'.held := by
  cases op with
  | insert t =>
    obtain rfl := Option.some_inj.mp hstep
    rcases insertTaskToPool_spec h t with ⟨-, hres⟩ | ⟨-, hok, hinv⟩
    · dsimp only
      rw [hres]
      exact h
    · dsimp only
      rw [hok, if_pos rfl]
      exact hinv
  | get =>
    obtain rfl := Option.some_inj.mp hstep
    rcases getTaskFromPool_spec h with ⟨-, hres⟩ | ⟨-, -, hres, hinv⟩
    · dsimp only
      rw [hres]
      exact h
    · dsimp only
      rw [hres, Option.isSome_some, if_pos rfl]
      exact hinv
  | drain ts =>
    obtain ⟨d, hd, rfl⟩ := Option.map_eq_some_iff.mp hstep
    obtain ⟨-, hall, hinv⟩ := drainQueuedTask_spec h hd
    have hfilter : d.inserts.filter Prod.snd = d.inserts := List.filter_eq_self.mpr hall
    rw [hfilter]
    exact hinv

/-- **The circular pool is a stable sorted queue.**  After every sequence of
operations from the empty pool, with any number of wrap-arounds: the counter is
the distance from head to tail, the live slots are sorted and are the tasks held,
in insertion order within a key; `GetTaskFromPool` returns a least task, and
`nil` exactly when none is held; `InsertTaskToPool` fails exactly when
`taskPoolSize - 1` tasks are held, without changing anything, and never inside
`DrainQueuedTask`, which inserts the tasks that it finds until one has `Pid = -1` or
the pool is full. -/
theorem pool_refines_sorted_queue (ops : List PoolOp) (s : PoolSystem)
    (hrun : run poolStep PoolSystem.init ops = some s) :
    (s.user.pool.count = ((s.user.pool.tail : ℤ) - s.user.pool.head) % taskPoolSize ∧
      s.user.pool.count ≤ taskPoolSize - 1) ∧
    Sorted taskKey s.user.pool.live ∧
    (s.user.pool.live.Perm s.held ∧
      ∀ c, s.user.pool.live.filter (fun t => taskKey t = c) =
        s.held.filter (fun t => taskKey t = c)) ∧
    (((getTaskFromPool s.user.pool).1 = none ↔ s.held = []) ∧
      ∀ q, (getTaskFromPool s.user.pool).1 = some q →
        ∃ t ∈ s.held, t.queuedTask = q ∧ ∀ u ∈ s.held, taskKey t ≤ taskKey u) ∧
    (∀ t, ((insertTaskToPool t s.user.pool).1 = false ↔ s.held.length = taskPoolSize - 1) ∧
      ((insertTaskToPool t s.user.pool).1 = false →
        (insertTaskToPool t s.user.pool).2 = s.user.pool)) ∧
    (∀ ts d, drainQueuedTask 0 s.user ts = some d → (∀ c ∈ d.inserts, c.2 = true) ∧
      d.inserts.map (fun c => c.1.queuedTask.unstamped) =
        (drainable s.held.length ts).map QueuedTask.unstamped) := by
  have h : PoolInv s.user.pool s.held :=
    invariant (I := fun s => PoolInv s.user.pool s.held) PoolInv.empty poolInv_step ops s
      (visits_of_run hrun)
  have hlt := h.length_lt
  refine ⟨⟨?_, ?_⟩, h.sorted.sorted, ⟨h.sorted.perm, h.sorted.stable⟩, ⟨?_, ?_⟩, ?_, ?_⟩
  · rw [h.sub_eq, h.count_eq]
  · rw [h.count_eq]
    omega
  · rcases getTaskFromPool_spec h with ⟨hnil, hres⟩ | ⟨hmem, -, hres, -⟩
    · simp [hnil, hres]
    · rw [hres]
      simpa using List.ne_nil_of_mem hmem
  · intro q hq
    rcases getTaskFromPool_spec h with ⟨-, hres⟩ | ⟨hmem, hleast, hres, -⟩
    · rw [hres] at hq
      exact absurd hq (by simp)
    · rw [hres, Option.some_inj] at hq
      exact ⟨_, hmem, hq, hleast⟩
  · intro t
    rcases insertTaskToPool_spec h t with ⟨hfull, hres⟩ | ⟨hroom, hok, -⟩
    · rw [hres]
      exact ⟨⟨fun _ => hfull, fun _ => rfl⟩, fun _ => rfl⟩
    · rw [hok]
      exact ⟨⟨fun hf => absurd hf (by simp), fun hf => by omega⟩, fun hf => absurd hf (by simp)⟩
  · intro ts d hd
    obtain ⟨htaken, hall, -⟩ := drainQueuedTask_spec h hd
    exact ⟨hall, htaken⟩

/-- A task from the queue; a pid of `-1` stands for none. -/
def queuedTaskOf (pid : Int32) : QueuedTask :=
  { (default : QueuedTask) with pid := pid, weight := 100, vtime := 20 }

/-- Two insertions, a drain of two tasks and a removal. -/
def poolOps : List PoolOp :=
  [.insert ⟨default, 30, 0⟩, .insert ⟨default, 10, 5⟩, .drain [queuedTaskOf 7, queuedTaskOf 8],
    .get]

/-- The pool is left with the tasks 7 and 8 in front of the first one; the next drain takes
task 9, and not the one behind an empty queue. -/
theorem pool_refines_sorted_queue_four_operations :
    ∃ s, run poolStep PoolSystem.init poolOps = some s ∧ Sorted taskKey s.user.pool.live ∧
      s.user.pool.live.map (fun t => t.queuedTask.pid) = [7, 8, 0] ∧
      ∀ d, drainQueuedTask 0 s.user [queuedTaskOf 9, queuedTaskOf (-1), queuedTaskOf 10] = some d →
        d.inserts.map (fun c => c.1.queuedTask.unstamped) = [(queuedTaskOf 9).unstamped] := by
  have heval : (run poolStep PoolSystem.init poolOps).map (fun s =>
      (s.user.pool.live.map fun t => t.queuedTask.pid, s.held.length)) = some ([7, 8, 0], 3) := by
    decide +kernel
  obtain ⟨s, hs, heq⟩ := Option.map_eq_some_iff.mp heval
  obtain ⟨hlive, hheld⟩ := Prod.mk.inj heq
  obtain ⟨-, hsorted, -, -, -, hdrain⟩ := pool_refines_sorted_queue poolOps s hs
  refine ⟨s, hs, hsorted, hlive, fun d hd => ?_⟩
  rw [(hdrain _ d hd).2, hheld]
  decide

end ScxGoland
