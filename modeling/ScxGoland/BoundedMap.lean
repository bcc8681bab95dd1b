/-
Finite maps with a capacity, as hash tables of a fixed number of entries behave.

A `BoundedMap κ ν cap` holds at most `cap` entries, by construction.  Updating a
key that is present replaces its value; a new key is stored only while there is
room, otherwise the update is refused and the map stays as it is.  Deleting a
key that is absent does nothing.

* `lookup_update_self`, `lookup_update_ne`, `lookup_delete` — the lookups;
* `update_eq_self_iff`, `delete_eq_self_iff` — when an operation leaves the map
  exactly as it was.
-/
import Mathlib.Data.Finmap

/-- A finite map with at most `cap` entries. -/
structure BoundedMap (κ ν : Type*) (cap : ℕ) where
  entries : Finmap fun _ : κ => ν
  card_le : entries.keys.card ≤ cap

namespace BoundedMap

variable {κ ν : Type*} {cap : ℕ} [DecidableEq κ]

theorem keys_insert (k : κ) (v : ν) (f : Finmap fun _ : κ => ν) :
    (f.insert k v).keys = Insert.insert k f.keys := by
  ext a
  rw [Finmap.mem_keys, Finmap.mem_insert, Finset.mem_insert, Finmap.mem_keys]

/-- The map with no entries. -/
def empty (κ ν : Type*) (cap : ℕ) : BoundedMap κ ν cap := ⟨∅, by simp⟩

/-- The value stored under `k`. -/
def lookup (b : BoundedMap κ ν cap) (k : κ) : Option ν := b.entries.lookup k

/-- All entries are in use. -/
def Full (b : BoundedMap κ ν cap) : Prop := b.entries.keys.card = cap

instance (b : BoundedMap κ ν cap) : Decidable b.Full :=
  inferInstanceAs (Decidable (b.entries.keys.card = cap))

/-- Store `v` under `k`; refused when `k` is new and the map is full. -/
def update (b : BoundedMap κ ν cap) (k : κ) (v : ν) : BoundedMap κ ν cap :=
  if h : k ∈ b.entries then
    ⟨b.entries.insert k v, by
      rw [keys_insert, Finset.insert_eq_of_mem (Finmap.mem_keys.mpr h)]
      exact b.card_le⟩
  else if hfull : b.Full then b
  else
    ⟨b.entries.insert k v, by
      have hlt : b.entries.keys.card < cap := lt_of_le_of_ne b.card_le hfull
      rw [keys_insert, Finset.card_insert_of_notMem fun hk => h (Finmap.mem_keys.mp hk)]
      exact hlt⟩

/-- Remove the entry of `k`, if there is one. -/
def delete (b : BoundedMap κ ν cap) (k : κ) : BoundedMap κ ν cap :=
  ⟨b.entries.erase k, by
    rw [Finmap.keys_erase]
    exact (Finset.card_erase_le).trans b.card_le⟩

@[ext] theorem ext {b c : BoundedMap κ ν cap} (h : ∀ k, b.lookup k = c.lookup k) : b = c := by
  obtain ⟨f, hf⟩ := b
  obtain ⟨g, hg⟩ := c
  obtain rfl : f = g := Finmap.ext_lookup h
  rfl

theorem mem_iff_lookup_isSome (b : BoundedMap κ ν cap) (k : κ) :
    k ∈ b.entries ↔ (b.lookup k).isSome := Finmap.lookup_isSome.symm

theorem lookup_update_self (b : BoundedMap κ ν cap) (k : κ) (v : ν)
    (h : (b.lookup k).isSome ∨ ¬ b.Full) : (b.update k v).lookup k = some v := by
  rw [update]
  split_ifs with hk hfull
  · exact Finmap.lookup_insert _
  · rcases h with h | h
    · exact absurd ((b.mem_iff_lookup_isSome k).mpr h) hk
    · exact absurd hfull h
  · exact Finmap.lookup_insert _

/-- A refused update. -/
theorem update_of_full {b : BoundedMap κ ν cap} {k : κ} (v : ν)
    (hk : b.lookup k = none) (hfull : b.Full) : b.update k v = b := by
  have : k ∉ b.entries := fun hc => by
    rw [mem_iff_lookup_isSome, hk] at hc
    exact absurd hc (by simp)
  rw [update, dif_neg this, dif_pos hfull]

theorem lookup_update_ne (b : BoundedMap κ ν cap) {k k' : κ} (v : ν) (h : k' ≠ k) :
    (b.update k v).lookup k' = b.lookup k' := by
  rw [update]
  split_ifs
  · exact Finmap.lookup_insert_of_ne _ h
  · rfl
  · exact Finmap.lookup_insert_of_ne _ h

theorem lookup_delete (b : BoundedMap κ ν cap) (k k' : κ) :
    (b.delete k).lookup k' = if k' = k then none else b.lookup k' := by
  split_ifs with h
  · subst h
    exact Finmap.lookup_erase _ _
  · exact Finmap.lookup_erase_ne h

/-- An update is without effect when it is refused or stores what is there. -/
theorem update_eq_self_iff (b : BoundedMap κ ν cap) (k : κ) (v : ν) :
    b.update k v = b ↔ b.lookup k = some v ∨ (b.lookup k = none ∧ b.Full) := by
  constructor
  · intro h
    by_cases hroom : (b.lookup k).isSome ∨ ¬ b.Full
    · left
      rw [← h, lookup_update_self b k v hroom]
    · rw [not_or, not_not, Bool.not_eq_true, Option.isSome_eq_false_iff,
        Option.isNone_iff_eq_none] at hroom
      exact Or.inr hroom
  · rintro (h | ⟨hk, hfull⟩)
    · ext1 k'
      by_cases hk' : k' = k
      · subst hk'
        rw [lookup_update_self b k' v (Or.inl (by rw [h]; rfl)), h]
      · exact lookup_update_ne b v hk'
    · exact update_of_full v hk hfull

/-- An update stores its value or nothing. -/
theorem eq_of_lookup_update {b : BoundedMap κ ν cap} {k : κ} {v v' : ν}
    (h : (b.update k v).lookup k = some v') : v = v' := by
  by_cases hroom : (b.lookup k).isSome ∨ ¬ b.Full
  · rw [lookup_update_self b k v hroom] at h
    exact Option.some_inj.mp h
  · rw [not_or, not_not, Bool.not_eq_true, Option.isSome_eq_false_iff,
      Option.isNone_iff_eq_none] at hroom
    rw [update_of_full v hroom.1 hroom.2, hroom.1] at h
    exact absurd h (by simp)

/-- A deletion is without effect exactly on an absent key. -/
theorem delete_eq_self_iff (b : BoundedMap κ ν cap) (k : κ) :
    b.delete k = b ↔ b.lookup k = none := by
  constructor
  · intro h
    rw [← h, lookup_delete, if_pos rfl]
  · intro h
    ext1 k'
    rw [lookup_delete]
    split_ifs with hk
    · rw [hk, h]
    · rfl

end BoundedMap
