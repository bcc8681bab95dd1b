/-
Circular windows and stable sorted insertion.

A ring of `n` slots is a function `a : ℕ → α` read at indices below `n`.  Its
window of length `k` from slot `h` on lists the slots `h, h + 1, …` modulo `n`.

* `slot_injOn`, `slot_pred`, `slot_sub`, `window_cons` — the index arithmetic of
  a ring, done once;
* `window_insert` — shifting the tail of a window up by one slot and writing
  the gap inserts an element into the window's list.

The second half is the abstract sorted queue.  A list sorted by a key into a
linear order receives an element behind all elements of the same key
(`List.orderedInsert` for the strict order): it stays sorted
(`sorted_insert`), and within one key the elements stay in the order of their
insertion (`filter_insert`).  `StablySorted key held live` says that `live` is
the stable sort of `held`.

* `exists_overtaken_lt` — elements that are served in sorted batches are overtaken
  by less than a batch.
-/
import Mathlib.Data.List.Perm.Subperm
import Mathlib.Data.List.Sort
import Mathlib.Data.Nat.ModEq

namespace SortedRing

/-! ### Circular windows -/

section Window

variable {α : Type*} {n : ℕ}

/-- The slot `i` places after slot `h` in a ring of `n` slots. -/
def slot (n h i : ℕ) : ℕ := (h + i) % n

/-- The `k` elements read from slot `h` on. -/
def window (n : ℕ) (a : ℕ → α) (h k : ℕ) : List α :=
  (List.range k).map fun i => a (slot n h i)

@[simp] theorem window_length (a : ℕ → α) (h k : ℕ) : (window n a h k).length = k := by
  simp [window]

theorem window_getElem (a : ℕ → α) (h k i : ℕ) (hi : i < (window n a h k).length) :
    (window n a h k)[i] = a (slot n h i) := by
  simp [window]

theorem slot_zero {h : ℕ} (hh : h < n) : slot n h 0 = h := Nat.mod_eq_of_lt hh

/-- Distinct places of one revolution are distinct slots. -/
theorem slot_injOn {h i j : ℕ} (hi : i < n) (hj : j < n) (he : slot n h i = slot n h j) :
    i = j := by
  have hmod : i % n = j % n := Nat.ModEq.add_left_cancel' h he
  rwa [Nat.mod_eq_of_lt hi, Nat.mod_eq_of_lt hj] at hmod

theorem slot_slot_one (h i : ℕ) : slot n (slot n h 1) i = slot n h (i + 1) := by
  rw [slot, slot, slot, Nat.mod_add_mod, add_assoc, add_comm 1 i]

theorem slot_slot_succ (h i : ℕ) : slot n (slot n h i) 1 = slot n h (i + 1) := by
  rw [slot, slot, slot, Nat.mod_add_mod, add_assoc]

/-- One step back from a place that is not the first. -/
theorem slot_pred (h i : ℕ) (hn : 0 < n) : (slot n h (i + 1) + n - 1) % n = slot n h i := by
  have hback : ((h + (i + 1)) % n + (n - 1)) % n = (h + (i + 1) + (n - 1)) % n :=
    Nat.mod_add_mod _ _ _
  rw [slot, slot, Nat.add_sub_assoc hn, hback,
    show h + (i + 1) + (n - 1) = h + i + n by omega, Nat.add_mod_right]

/-- The distance from the first slot of a window to the slot behind its last. -/
theorem slot_sub {h k : ℕ} (hk : k < n) : ((slot n h k : ℤ) - h) % n = k := by
  rw [slot, Int.natCast_mod, Int.emod_sub_emod, Int.natCast_add, add_sub_cancel_left]
  exact Int.emod_eq_of_lt (Int.natCast_nonneg k) (Int.ofNat_lt.mpr hk)

/-- A window starts with its first slot. -/
theorem window_cons (a : ℕ → α) {h : ℕ} (k : ℕ) (hh : h < n) :
    window n a h (k + 1) = a h :: window n a (slot n h 1) k := by
  rw [window, List.range_succ_eq_map, List.map_cons, List.map_map, slot_zero hh]
  refine congrArg _ (List.map_congr_left fun i _ => ?_)
  rw [Function.comp_apply, slot_slot_one]

/-- **Insertion into a window**: `b` has the elements of `a` before place `j`,
`x` at place `j`, and the elements of `a` moved up by one place after it. -/
theorem window_insert {a b : ℕ → α} {h k j : ℕ} {x : α} (hj : j ≤ k)
    (hlow : ∀ i < j, b (slot n h i) = a (slot n h i))
    (hgap : b (slot n h j) = x)
    (hhigh : ∀ i, j ≤ i → i < k → b (slot n h (i + 1)) = a (slot n h i)) :
    window n b h (k + 1) = (window n a h k).take j ++ x :: (window n a h k).drop j := by
  apply List.ext_getElem
  · simp only [window_length, List.length_append, List.length_take, List.length_cons,
      List.length_drop]
    omega
  · intro i h1 h2
    rw [window_length] at h1
    rw [window_getElem]
    have hlen : ((window n a h k).take j).length = j := by
      rw [List.length_take, window_length]
      omega
    rcases lt_trichotomy i j with hij | rfl | hij
    · rw [List.getElem_append_left (by omega), List.getElem_take, window_getElem, hlow i hij]
    · rw [List.getElem_append_right (by omega), hgap]
      simp [hlen]
    · obtain ⟨i, rfl⟩ : ∃ i', i = i' + 1 := ⟨i - 1, by omega⟩
      rw [List.getElem_append_right (by omega), hhigh i (by omega) (by omega)]
      have hpos : i + 1 - ((window n a h k).take j).length = (i - j) + 1 := by omega
      simp only [hpos, List.getElem_cons_succ, List.getElem_drop, window_getElem]
      congr 2
      omega

end Window

/-! ### Stable sorted queues -/

section Stable

variable {α ι : Type*} [LinearOrder ι] (key : α → ι)

/-- Sorted by key, smallest first. -/
def Sorted (l : List α) : Prop := l.Pairwise fun a b => key a ≤ key b

/-- Insert behind all elements whose key is not larger. -/
def insert (a : α) (l : List α) : List α := l.orderedInsert (fun x y => key x < key y) a

variable {key}

theorem insert_perm (a : α) (l : List α) : (insert key a l).Perm (a :: l) :=
  List.perm_orderedInsert _ a l

theorem insert_cons_of_lt {a b : α} (l : List α) (h : key a < key b) :
    insert key a (b :: l) = a :: b :: l := List.orderedInsert_cons_of_le _ l h

theorem insert_cons_of_not_lt {a b : α} (l : List α) (h : ¬ key a < key b) :
    insert key a (b :: l) = b :: insert key a l := List.orderedInsert_of_not_le _ l h

/-- Insertion is at the first element with a larger key. -/
theorem insert_eq_take_drop (a : α) : ∀ {l : List α} {j : ℕ}, j ≤ l.length →
    (∀ i (hi : i < l.length), i < j → ¬ key a < key l[i]) →
    (∀ hj : j < l.length, key a < key l[j]) →
    insert key a l = l.take j ++ a :: l.drop j
  | [], j, _, _, _ => by simp [insert]
  | b :: l, 0, _, _, hat => insert_cons_of_lt l (hat (Nat.zero_lt_succ _))
  | b :: l, j + 1, hj, hlow, hat => by
    have hb : ¬ key a < key b := hlow 0 (Nat.zero_lt_succ _) (Nat.zero_lt_succ _)
    rw [insert_cons_of_not_lt l hb, insert_eq_take_drop a (Nat.le_of_succ_le_succ hj)
        (fun i hi hij => hlow (i + 1) (Nat.succ_lt_succ hi) (Nat.succ_lt_succ hij))
        (fun hj => hat (Nat.succ_lt_succ hj))]
    rfl

/-- Insertion keeps a sorted list sorted. -/
theorem sorted_insert (a : α) : ∀ {l : List α}, Sorted key l → Sorted key (insert key a l)
  | [], _ => List.pairwise_singleton _ a
  | b :: l, hl => by
    obtain ⟨hb, hl'⟩ := List.pairwise_cons.mp hl
    by_cases hab : key a < key b
    · rw [insert_cons_of_lt l hab]
      refine List.pairwise_cons.mpr ⟨fun c hc => ?_, hl⟩
      rcases List.mem_cons.mp hc with rfl | hc
      · exact hab.le
      · exact hab.le.trans (hb c hc)
    · rw [insert_cons_of_not_lt l hab]
      refine List.pairwise_cons.mpr ⟨fun c hc => ?_, sorted_insert a hl'⟩
      rcases List.mem_cons.mp ((insert_perm a l).mem_iff.mp hc) with rfl | hc
      · exact not_lt.mp hab
      · exact hb c hc

/-- Insertion puts an element last among those of its key. -/
theorem filter_insert (a : α) (c : ι) : ∀ {l : List α}, Sorted key l →
    (insert key a l).filter (fun x => key x = c) =
      (l ++ [a]).filter (fun x => key x = c)
  | [], _ => rfl
  | b :: l, hl => by
    obtain ⟨hb, hl'⟩ := List.pairwise_cons.mp hl
    by_cases hab : key a < key b
    · rw [insert_cons_of_lt l hab]
      by_cases hac : key a = c
      · -- Everything in the list is larger than `a`, hence of another key.
        have hnone : (b :: l).filter (fun x => key x = c) = [] := by
          rw [List.filter_eq_nil_iff]
          intro x hx hxc
          rw [decide_eq_true_eq] at hxc
          rcases List.mem_cons.mp hx with rfl | hx
          · exact absurd (hac.trans hxc.symm) hab.ne
          · exact absurd (hac.trans hxc.symm) (hab.trans_le (hb x hx)).ne
        rw [List.filter_append, hnone, List.filter_cons, hnone]
        simp [hac]
      · rw [List.filter_append, List.filter_cons, if_neg (by simpa using hac)]
        simp [hac]
    · rw [insert_cons_of_not_lt l hab, List.cons_append, List.filter_cons, List.filter_cons,
        filter_insert a c hl']

/-- `live` is the stable sort of `held`: the same elements, sorted by key, and
in the order of `held` within each key. -/
structure StablySorted (key : α → ι) (held live : List α) : Prop where
  perm : live.Perm held
  sorted : Sorted key live
  stable : ∀ c, live.filter (fun x => key x = c) = held.filter (fun x => key x = c)

theorem StablySorted.nil : StablySorted key [] [] :=
  ⟨List.Perm.refl _, List.Pairwise.nil, fun _ => rfl⟩

theorem StablySorted.insert {held live : List α} (h : StablySorted key held live) (a : α) :
    StablySorted key (held ++ [a]) (insert key a live) where
  perm := (insert_perm a live).trans
    ((h.perm.cons a).trans (List.perm_append_singleton a held).symm)
  sorted := sorted_insert a h.sorted
  stable c := by
    rw [filter_insert a c h.sorted, List.filter_append, List.filter_append, h.stable c]

/-- Taking the first element: it is a least one, and the first of its key that
was inserted. -/
theorem StablySorted.tail [DecidableEq α] {held live : List α} {a : α}
    (h : StablySorted key held (a :: live)) : StablySorted key (held.erase a) live where
  perm := by
    have := h.perm.erase a
    rwa [List.erase_cons_head] at this
  sorted := (List.pairwise_cons.mp h.sorted).2
  stable c := by
    have hc := h.stable c
    rw [← List.erase_filter, ← hc]
    by_cases hac : key a = c
    · rw [List.filter_cons_of_pos (by simpa using hac), List.erase_cons_head]
    · rw [List.filter_cons_of_neg (by simpa using hac), List.erase_of_not_mem]
      intro hmem
      exact hac (by simpa using (List.mem_filter.mp hmem).2)

theorem StablySorted.le_of_mem {held live : List α} {a b : α}
    (h : StablySorted key held (a :: live)) (hb : b ∈ held) : key a ≤ key b := by
  rcases List.mem_cons.mp (h.perm.mem_iff.mpr hb) with rfl | hb
  · exact le_refl _
  · exact (List.pairwise_cons.mp h.sorted).1 b hb

/-- Two sorted lists that agree within each key are equal. -/
theorem eq_of_filter : ∀ {l l' : List α}, Sorted key l → Sorted key l' →
    (∀ c, l.filter (fun x => key x = c) = l'.filter (fun x => key x = c)) → l = l'
  | [], [], _, _, _ => rfl
  | [], b :: l', _, _, h => absurd (h (key b)) (by simp)
  | a :: l, [], _, _, h => absurd (h (key a)) (by simp)
  | a :: l, b :: l', hl, hl', h => by
    have hmem : ∀ {l l' : List α} {x}, (∀ c, l.filter (fun x => key x = c) =
        l'.filter (fun x => key x = c)) → x ∈ l' → x ∈ l := by
      intro l l' x h hx
      have hfilter : x ∈ l'.filter (fun y => key y = key x) := List.mem_filter.mpr ⟨hx, by simp⟩
      rw [← h (key x)] at hfilter
      exact List.mem_of_mem_filter hfilter
    have hle : ∀ {a b : α} {l : List α}, Sorted key (a :: l) → b ∈ a :: l → key a ≤ key b := by
      intro a b l hl hb
      rcases List.mem_cons.mp hb with rfl | hb
      · exact le_refl _
      · exact (List.pairwise_cons.mp hl).1 b hb
    -- the two heads are least in both lists, hence of one key, and first in it
    have hkey : key a = key b := le_antisymm (hle hl (hmem h List.mem_cons_self))
      (hle hl' (hmem (fun c => (h c).symm) List.mem_cons_self))
    have hheads := h (key a)
    rw [List.filter_cons_of_pos (by simp), List.filter_cons_of_pos (by simp [hkey])] at hheads
    obtain rfl : a = b := (List.cons.inj hheads).1
    refine congrArg _ (eq_of_filter (List.pairwise_cons.mp hl).2 (List.pairwise_cons.mp hl').2
      fun c => ?_)
    have hc := h c
    rw [List.filter_cons, List.filter_cons] at hc
    split_ifs at hc
    · exact (List.cons.inj hc).2
    · exact hc

/-- A list has one stable sort. -/
theorem StablySorted.unique {held live live' : List α} (h : StablySorted key held live)
    (h' : StablySorted key held live') : live = live' :=
  eq_of_filter h.sorted h'.sorted fun c => (h.stable c).trans (h'.stable c).symm

end Stable

/-! ### Batches -/

section Batches

variable {α ι : Type*} [LinearOrder ι] {key : α → ι} {least bound : ℕ}

/-- A batch of elements, in the order of arrival and in the order in which they were
served. -/
structure Batch (key : α → ι) (least bound : ℕ) where
  arrived : List α
  served : List α
  sorted : StablySorted key arrived served
  least_le : least ≤ arrived.length
  length_le : arrived.length ≤ bound

/-! Which elements have overtaken others is a matter of places, since equal elements may
arrive. -/

/-- The elements of `served`, in this order, are those at `places` in `arrived`, each at a
place of its own. -/
structure ServedAt (arrived : List α) (places : List ℕ) (served : List α) : Prop where
  nodup : places.Nodup
  elems : places.map (arrived[·]?) = served.map some

namespace ServedAt

variable {arrived arrived' served served' : List α} {places places' : List ℕ}

theorem lt_length (h : ServedAt arrived places served) {i : ℕ} (hi : i ∈ places) :
    i < arrived.length := by
  have hmem : arrived[i]? ∈ served.map some :=
    h.elems ▸ List.mem_map_of_mem (f := (arrived[·]?)) hi
  obtain ⟨a, -, ha⟩ := List.mem_map.mp hmem
  exact (List.getElem?_eq_some_iff.mp ha.symm).1

theorem length_eq (h : ServedAt arrived places served) : places.length = served.length := by
  have hlen := congrArg List.length h.elems
  rwa [List.length_map, List.length_map] at hlen

/-- What is served of the elements that arrived stands at some of their places. -/
theorem exists_of_subperm (h : served.Subperm arrived) :
    ∃ places, ServedAt arrived places served := by
  obtain ⟨kept, hperm, hsub⟩ := h
  rw [← List.zipIdx_map_fst 0 arrived, List.sublist_map_iff] at hsub
  obtain ⟨marked, hmarked, rfl⟩ := hsub
  -- the elements are served together with the places they carry
  have hcomp : Relation.Comp (· = List.map Prod.fst ·) List.Perm served marked := by
    rw [List.eq_map_comp_perm]
    exact hperm.symm
  obtain ⟨order, rfl, horder⟩ := hcomp
  refine ⟨order.map Prod.snd, ?_, ?_⟩
  · rw [(horder.map Prod.snd).nodup_iff]
    refine (hmarked.map Prod.snd).nodup ?_
    rw [List.zipIdx_map_snd]
    exact List.nodup_range'
  · rw [List.map_map, List.map_map]
    refine List.map_congr_left fun x hx => ?_
    exact List.mem_zipIdx_iff_getElem?.mp (hmarked.subset (horder.subset hx))

theorem map {β : Type*} (h : ServedAt arrived places served) (f : α → β) :
    ServedAt (arrived.map f) places (served.map f) where
  nodup := h.nodup
  elems := by
    have hmap := congrArg (List.map (Option.map f)) h.elems
    rw [List.map_map, List.map_map] at hmap
    rw [List.map_map]
    exact (List.map_congr_left fun i _ => List.getElem?_map).trans hmap

theorem append (h : ServedAt arrived places served) (h' : ServedAt arrived' places' served') :
    ServedAt (arrived ++ arrived') (places ++ places'.map (arrived.length + ·))
      (served ++ served') where
  nodup := by
    refine List.nodup_append.mpr ⟨h.nodup, ?_, fun i hi j hj => ?_⟩
    · exact h'.nodup.map fun i j hij => Nat.add_left_cancel hij
    · obtain ⟨k, -, rfl⟩ := List.mem_map.mp hj
      exact (Nat.lt_add_right k (h.lt_length hi)).ne
  elems := by
    rw [List.map_append, List.map_append, ← h.elems, ← h'.elems, List.map_map]
    refine congrArg₂ _ (List.map_congr_left fun i hi => ?_) (List.map_congr_left fun i _ => ?_)
    · exact List.getElem?_append_left (h.lt_length hi)
    · rw [Function.comp_apply, List.getElem?_append_right (Nat.le_add_right _ _),
        Nat.add_sub_cancel_left]

/-- When all are served, every place is. -/
theorem mem_of_perm (h : ServedAt arrived places served) (hperm : served.Perm arrived) {i : ℕ}
    (hi : i < arrived.length) : i ∈ places := by
  have hsub : places.Subperm (List.range arrived.length) :=
    List.subperm_of_subset h.nodup fun j hj => List.mem_range.mpr (h.lt_length hj)
  have hall : places.Perm (List.range arrived.length) := hsub.perm_of_length_le (by
    rw [List.length_range, h.length_eq, hperm.length_eq])
  exact hall.mem_iff.mpr (List.mem_range.mpr hi)

/-- The elements that are served of those that arrived after one are no more than all
of them. -/
theorem countP_lt_le (h : ServedAt arrived places served) (j : ℕ) :
    places.countP (j < ·) ≤ arrived.length - (j + 1) := by
  have hsub : (places.filter (j < ·)).Subperm
      (List.range' (j + 1) (arrived.length - (j + 1))) := by
    refine List.subperm_of_subset (h.nodup.filter _) fun i hi => ?_
    obtain ⟨hmem, hlt⟩ := List.mem_filter.mp hi
    have hi := h.lt_length hmem
    have hji : j < i := of_decide_eq_true hlt
    exact List.mem_range'_1.mpr ⟨hji, by omega⟩
  have hle := hsub.length_le
  rwa [List.length_range', ← List.countP_eq_length_filter] at hle

end ServedAt

/-- **Bounded overtaking.**  Batches are served one after the other, and the last one
in part.  Then less than a batch of the elements that arrived after one that is still
waiting have been served. -/
theorem exists_overtaken_lt (done : List (Batch key least bound)) {arrived served : List α}
    (hsub : served.Subperm arrived) (hlen : arrived.length ≤ bound) :
    ∃ places, ServedAt (done.flatMap Batch.arrived ++ arrived) places
        (done.flatMap Batch.served ++ served) ∧
      ∀ j < (done.flatMap Batch.arrived ++ arrived).length, j ∉ places →
        places.countP (j < ·) < bound := by
  have hperm : (done.flatMap Batch.served).Perm (done.flatMap Batch.arrived) :=
    List.Perm.flatMap_left done fun b _ => b.sorted.perm
  obtain ⟨whole, hwhole⟩ := ServedAt.exists_of_subperm hperm.subperm
  obtain ⟨part, hpart⟩ := ServedAt.exists_of_subperm hsub
  refine ⟨_, hwhole.append hpart, fun j hj hwaits => ?_⟩
  -- one that waits is in the last batch
  have hlast : (done.flatMap Batch.arrived).length ≤ j := by
    by_contra hlt
    exact hwaits (List.mem_append_left _ (hwhole.mem_of_perm hperm (not_le.mp hlt)))
  have hcount := (hwhole.append hpart).countP_lt_le j
  rw [List.length_append] at hj hcount
  omega

end Batches

end SortedRing
