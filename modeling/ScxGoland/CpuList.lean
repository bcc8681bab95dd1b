/-
CPU lists as the kernel prints them, and `parseCPUs` of `util/topology.go`.

The loop over a range counts with Go's 64-bit `int`: `expandRange` gets a number
of iterations that it may make, and `none` is a loop that has not ended by
then.  A range that ends at the largest `int` never ends, since the counter
wraps around.

* `Denotes s a b` — the grammar of a segment: the single number `a = b`, or the
  range from `a` to `b`;
* `parse_cpus_grammar` — without such endless ranges, `parseCPUs` accepts exactly
  the lists of this grammar, and yields their numbers in order;
* `parse_cpus_terminates_iff` — `parseCPUs` ends exactly on the strings where no
  endless range is reached.
-/
import ScxGoland.GoStrings

open GoStrings

namespace ScxGoland

/-! ### The code -/

/-- An error made by `fmt.Errorf(format, arg)`. -/
structure Errorf where
  format : String
  arg : GoString
deriving DecidableEq

/-- `for i := start; i <= end; i++`, within so many iterations. -/
def expandRange : ℕ → Int64 → Int64 → List Int64 → Option (List Int64)
  | 0, _, _, _ => none
  | fuel + 1, i, stop, result =>
    if i ≤ stop then expandRange fuel (i + 1) stop (result ++ [i]) else some result

/-- The body of the loop over the segments: the longer list, or the error that
`parseCPUs` returns. -/
def parseSegment (fuel : ℕ) (segment : GoString) (result : List Int64) :
    Option (Except Errorf (List Int64)) :=
  let segment := trimSpace segment
  if dash ∈ segment then
    match segment.splitOn dash with
    | [lo, hi] =>
      match atoi lo with
      | none => some (.error ⟨"invalid start of range: %s", lo⟩)
      | some start =>
        match atoi hi with
        | none => some (.error ⟨"invalid end of range: %s", hi⟩)
        | some stop =>
          if stop < start then some (.error ⟨"start greater than end in range: %s", segment⟩)
          else (expandRange fuel start stop result).map .ok
    | _ => some (.error ⟨"invalid range: %s", segment⟩)
  else
    match atoi segment with
    | none => some (.error ⟨"invalid number: %s", segment⟩)
    | some num => some (.ok (result ++ [num]))

/-- The loop over the segments, with the pair that `parseCPUs` returns. -/
def parseSegments (fuel : ℕ) : List GoString → List Int64 → Option (List Int64 × Option Errorf)
  | [], result => some (result, none)
  | segment :: segments, result =>
    match parseSegment fuel segment result with
    | none => none
    | some (.error err) => some ([], some err)
    | some (.ok result) => parseSegments fuel segments result

def parseCPUs (fuel : ℕ) (cpuList : GoString) : Option (List Int64 × Option Errorf) :=
  parseSegments fuel (cpuList.splitOn comma) []

/-! ### The grammar -/

/-- The whole numbers from `a` to `b`. -/
def intRange (a b : ℤ) : List ℤ := (List.range (b + 1 - a).toNat).map fun k : ℕ => a + k

/-- A segment denotes a single number, or a range with both ends included. -/
inductive Denotes (s : GoString) : ℤ → ℤ → Prop where
  | single {n : Int64} (hdash : dash ∉ s) (hn : atoi s = some n) : Denotes s n.toInt n.toInt
  | range {lo hi : GoString} {a b : Int64} (hs : s = lo ++ dash :: hi) (hlo : dash ∉ lo)
      (hhi : dash ∉ hi) (ha : atoi lo = some a) (hb : atoi hi = some b) (hle : a ≤ b) :
      Denotes s a.toInt b.toInt

/-- A range up to the largest `int`. -/
def Endless (s : GoString) : Prop :=
  ∃ lo hi a, s = lo ++ dash :: hi ∧ dash ∉ lo ∧ dash ∉ hi ∧ atoi lo = some a ∧
    atoi hi = some Int64.maxValue

theorem Denotes.nonneg {s : GoString} {a b : ℤ} (h : Denotes s a b) : 0 ≤ a := by
  cases h with
  | single hdash hn => exact atoi_nonneg hdash hn
  | range hs hlo hhi ha hb hle => exact atoi_nonneg hlo ha

theorem Denotes.unique {s : GoString} {a b a' b' : ℤ} (h : Denotes s a b) (h' : Denotes s a' b') :
    a = a' ∧ b = b' := by
  cases h with
  | single hdash hn =>
    cases h' with
    | single _ hn' =>
      obtain rfl := Option.some_inj.mp (hn.symm.trans hn')
      exact ⟨rfl, rfl⟩
    | range hs _ _ _ _ _ => exact absurd (by rw [hs]; simp) hdash
  | range hs hlo hhi ha hb _ =>
    cases h' with
    | single hdash _ => exact absurd (by rw [hs]; simp) hdash
    | range hs' hlo' hhi' ha' hb' _ =>
      have hsplit := splitOn_eq_pair_iff.mpr ⟨hs, hlo, hhi⟩
      rw [splitOn_eq_pair_iff.mpr ⟨hs', hlo', hhi'⟩] at hsplit
      obtain ⟨rfl, hrest⟩ := List.cons.inj hsplit
      obtain ⟨rfl, -⟩ := List.cons.inj hrest
      obtain rfl := Option.some_inj.mp (ha.symm.trans ha')
      obtain rfl := Option.some_inj.mp (hb.symm.trans hb')
      exact ⟨rfl, rfl⟩

/-! ### The loop over a range -/

theorem toInt_add_one {i stop : Int64} (hle : i ≤ stop) (hstop : stop < Int64.maxValue) :
    (i + 1).toInt = i.toInt + 1 := by
  rw [Int64.le_iff_toInt_le] at hle
  rw [Int64.lt_iff_toInt_lt, show Int64.maxValue.toInt = 2 ^ 63 - 1 from rfl] at hstop
  have hlo := i.le_toInt
  rw [Int64.toInt_add, show (1 : Int64).toInt = 1 from rfl]
  exact Int.bmod_eq_of_le (by omega) (by omega)

theorem intRange_of_lt {a b : ℤ} (h : b < a) : intRange a b = [] := by
  rw [intRange, show (b + 1 - a).toNat = 0 by omega]
  rfl

theorem intRange_of_le {a b : ℤ} (h : a ≤ b) : intRange a b = a :: intRange (a + 1) b := by
  rw [intRange, intRange, show (b + 1 - a).toNat = (b + 1 - (a + 1)).toNat + 1 by omega,
    List.range_succ_eq_map, List.map_cons, List.map_map, Nat.cast_zero, add_zero]
  refine congrArg _ (List.map_congr_left fun k _ => ?_)
  simp only [Function.comp_apply, Nat.cast_succ]
  ring

/-- A range below the largest `int` is listed in full, in as many iterations as it
has numbers and one more. -/
theorem expandRange_spec {stop : Int64} (hstop : stop < Int64.maxValue) {n : ℕ} {i : Int64}
    (hn : n = (stop.toInt + 1 - i.toInt).toNat) (result : List Int64) :
    ∃ result', (∀ fuel, n < fuel → expandRange fuel i stop result = some result') ∧
      result'.map Int64.toInt = result.map Int64.toInt ++ intRange i.toInt stop.toInt := by
  induction n generalizing i result with
  | zero =>
    have hlt : stop.toInt < i.toInt := by omega
    refine ⟨result, fun fuel hfuel => ?_, by rw [intRange_of_lt hlt, List.append_nil]⟩
    cases fuel with
    | zero => exact absurd hfuel (Nat.lt_irrefl _)
    | succ fuel => exact if_neg (by rw [Int64.le_iff_toInt_le]; omega)
  | succ n ih =>
    have hle : i.toInt ≤ stop.toInt := by omega
    have hsucc := toInt_add_one (Int64.le_iff_toInt_le.mpr hle) hstop
    obtain ⟨result', heq, hval⟩ := ih (i := i + 1) (by rw [hsucc]; omega) (result ++ [i])
    refine ⟨result', fun fuel hfuel => ?_, ?_⟩
    · cases fuel with
      | zero => exact absurd hfuel (Nat.not_lt_zero _)
      | succ fuel =>
        rw [expandRange, if_pos (Int64.le_iff_toInt_le.mpr hle)]
        exact heq fuel (Nat.lt_of_succ_lt_succ hfuel)
    · rw [hval, hsucc, intRange_of_le hle, List.map_append, List.append_assoc]
      rfl

/-- The counter never gets past the largest `int`. -/
theorem expandRange_maxValue (fuel : ℕ) (i : Int64) (result : List Int64) :
    expandRange fuel i Int64.maxValue result = none := by
  induction fuel generalizing i result with
  | zero => rfl
  | succ fuel ih =>
    have hle : i ≤ Int64.maxValue := by
      rw [Int64.le_iff_toInt_le]
      exact i.toInt_le
    rw [expandRange, if_pos hle]
    exact ih (i + 1) (result ++ [i])

theorem expandRange_mono {fuel fuel' : ℕ} (hfuel : fuel ≤ fuel') {i stop : Int64}
    {result result' : List Int64} (h : expandRange fuel i stop result = some result') :
    expandRange fuel' i stop result = some result' := by
  induction fuel generalizing fuel' i result with
  | zero => exact absurd h (by simp [expandRange])
  | succ fuel ih =>
    cases fuel' with
    | zero => exact absurd hfuel (Nat.not_succ_le_zero _)
    | succ fuel' =>
      rw [expandRange] at h ⊢
      split_ifs at h ⊢
      · exact ih (Nat.le_of_succ_le_succ hfuel) h
      · exact h

/-! ### One segment -/

/-- A segment with two numbers around its only `-`. -/
theorem parseSegment_range {segment lo hi : GoString} {a b : Int64}
    (hs : trimSpace segment = lo ++ dash :: hi) (hlo : dash ∉ lo) (hhi : dash ∉ hi)
    (ha : atoi lo = some a) (hb : atoi hi = some b) (hle : a ≤ b) (fuel : ℕ)
    (result : List Int64) :
    parseSegment fuel segment result = (expandRange fuel a b result).map .ok := by
  have hdash : dash ∈ trimSpace segment := by
    rw [hs]
    simp
  have hle' : ¬ b < a := by
    rw [Int64.lt_iff_toInt_lt, Int.not_lt]
    exact Int64.le_iff_toInt_le.mp hle
  rw [parseSegment, if_pos hdash, splitOn_eq_pair_iff.mpr ⟨hs, hlo, hhi⟩]
  dsimp only
  rw [ha, hb]
  exact if_neg hle'

/-- A segment of the grammar is no error. -/
theorem Denotes.not_error {segment : GoString} {a b : ℤ} (h : Denotes (trimSpace segment) a b)
    (fuel : ℕ) (result : List Int64) :
    ∃ r, parseSegment fuel segment result = Option.map Except.ok r := by
  cases h with
  | @single n hdash hn =>
    refine ⟨some (result ++ [n]), ?_⟩
    rw [parseSegment, if_neg hdash, hn]
    rfl
  | range hs hlo hhi ha hb hle => exact ⟨_, parseSegment_range hs hlo hhi ha hb hle fuel result⟩

theorem Endless.diverges {segment : GoString} (h : Endless (trimSpace segment)) (fuel : ℕ)
    (result : List Int64) : parseSegment fuel segment result = none := by
  obtain ⟨lo, hi, a, hs, hlo, hhi, ha, hb⟩ := h
  have hle : a ≤ Int64.maxValue := by
    rw [Int64.le_iff_toInt_le]
    exact a.toInt_le
  rw [parseSegment_range hs hlo hhi ha hb hle, expandRange_maxValue]
  rfl

/-- A segment of the grammar adds its numbers, if it is not endless. -/
theorem parseSegment_denotes {segment : GoString} {a b : ℤ} (h : Denotes (trimSpace segment) a b)
    (hend : ¬ Endless (trimSpace segment)) (result : List Int64) :
    ∃ result' least, (∀ fuel, least ≤ fuel → parseSegment fuel segment result = some (.ok result')) ∧
      result'.map Int64.toInt = result.map Int64.toInt ++ intRange a b := by
  cases h with
  | @single n hdash hn =>
    refine ⟨result ++ [n], 0, fun fuel _ => ?_, ?_⟩
    · rw [parseSegment, if_neg hdash, hn]
    · rw [intRange_of_le le_rfl, intRange_of_lt (by omega), List.map_append]
      rfl
  | @range lo hi a b hs hlo hhi ha hb hle =>
    have hlt : b < Int64.maxValue := by
      have hne : b.toInt ≠ Int64.maxValue.toInt := by
        intro heq
        obtain rfl := Int64.toInt_inj.mp heq
        exact hend ⟨lo, hi, a, hs, hlo, hhi, ha, hb⟩
      rw [Int64.lt_iff_toInt_lt]
      exact lt_of_le_of_ne b.toInt_le hne
    obtain ⟨result', heq, hval⟩ := expandRange_spec hlt rfl result
    refine ⟨result', (b.toInt + 1 - a.toInt).toNat + 1, fun fuel hfuel => ?_, hval⟩
    rw [parseSegment_range hs hlo hhi ha hb hle, heq fuel hfuel]
    rfl

theorem parseSegment_mono {fuel fuel' : ℕ} (hfuel : fuel ≤ fuel') {segment : GoString}
    {result : List Int64} {r : Except Errorf (List Int64)}
    (h : parseSegment fuel segment result = some r) :
    parseSegment fuel' segment result = some r := by
  rw [parseSegment] at h ⊢
  split_ifs at h ⊢ with hdash
  · split at h
    · split at h
      · exact h
      · split at h
        · exact h
        · split_ifs at h ⊢
          · exact h
          · obtain ⟨result', heq, rfl⟩ := Option.map_eq_some_iff.mp h
            rw [expandRange_mono hfuel heq]
            rfl
    · exact h
  · exact h

/-- Any other segment is an error. -/
theorem parseSegment_error {segment : GoString} (h : ∀ a b, ¬ Denotes (trimSpace segment) a b)
    (result : List Int64) :
    ∃ err, ∀ fuel, parseSegment fuel segment result = some (.error err) := by
  by_cases hdash : dash ∈ trimSpace segment
  · by_cases hpair : ∃ lo hi, (trimSpace segment).splitOn dash = [lo, hi]
    · obtain ⟨lo, hi, hpair⟩ := hpair
      obtain ⟨hs, hlo, hhi⟩ := splitOn_eq_pair_iff.mp hpair
      rcases ha : atoi lo with _ | a
      · refine ⟨⟨"invalid start of range: %s", lo⟩, fun fuel => ?_⟩
        rw [parseSegment, if_pos hdash, hpair]
        dsimp only
        rw [ha]
      · rcases hb : atoi hi with _ | b
        · refine ⟨⟨"invalid end of range: %s", hi⟩, fun fuel => ?_⟩
          rw [parseSegment, if_pos hdash, hpair]
          dsimp only
          rw [ha, hb]
        · have hgt : b < a := by
            by_contra hge
            refine h a.toInt b.toInt (.range hs hlo hhi ha hb ?_)
            rw [Int64.lt_iff_toInt_lt, Int.not_lt] at hge
            exact Int64.le_iff_toInt_le.mpr hge
          refine ⟨⟨"start greater than end in range: %s", trimSpace segment⟩, fun fuel => ?_⟩
          rw [parseSegment, if_pos hdash, hpair]
          dsimp only
          rw [ha, hb]
          exact if_pos hgt
    · refine ⟨⟨"invalid range: %s", trimSpace segment⟩, fun fuel => ?_⟩
      rw [parseSegment, if_pos hdash]
      split
      · rename_i lo hi heq
        exact absurd ⟨lo, hi, heq⟩ hpair
      · rfl
  · have hnum : atoi (trimSpace segment) = none := by
      rcases hn : atoi (trimSpace segment) with _ | n
      · rfl
      · exact absurd (Denotes.single hdash hn) (h n.toInt n.toInt)
    refine ⟨⟨"invalid number: %s", trimSpace segment⟩, fun fuel => ?_⟩
    rw [parseSegment, if_neg hdash, hnum]

/-! ### All segments -/

/-- The segments denote these numbers and ranges, in this order. -/
def DenoteAll (segments : List GoString) (parts : List (ℤ × ℤ)) : Prop :=
  List.Forall₂ (fun segment part => Denotes (trimSpace segment) part.1 part.2) segments parts

theorem DenoteAll.exists_part {segments : List GoString} {parts : List (ℤ × ℤ)}
    (h : DenoteAll segments parts) {segment : GoString} (hsegment : segment ∈ segments) :
    ∃ part ∈ parts, Denotes (trimSpace segment) part.1 part.2 := by
  induction h with
  | nil => exact absurd hsegment List.not_mem_nil
  | @cons _ part _ _ hpart _ ih =>
    rcases List.mem_cons.mp hsegment with rfl | hsegment
    · exact ⟨part, List.mem_cons_self, hpart⟩
    · obtain ⟨part', hmem, hpart'⟩ := ih hsegment
      exact ⟨part', List.mem_cons_of_mem _ hmem, hpart'⟩

theorem DenoteAll.forall {segments : List GoString} {parts : List (ℤ × ℤ)}
    (h : DenoteAll segments parts) :
    ∀ segment ∈ segments, ∃ a b, Denotes (trimSpace segment) a b := by
  intro segment hsegment
  obtain ⟨part, -, hpart⟩ := h.exists_part hsegment
  exact ⟨part.1, part.2, hpart⟩

theorem DenoteAll.unique {segments : List GoString} {parts parts' : List (ℤ × ℤ)}
    (h : DenoteAll segments parts) (h' : DenoteAll segments parts') : parts = parts' := by
  induction h generalizing parts' with
  | nil =>
    cases h'
    rfl
  | cons hpart _ ih =>
    cases h' with
    | cons hpart' hrest' =>
      obtain ⟨ha, hb⟩ := hpart.unique hpart'
      exact congrArg₂ List.cons (Prod.ext ha hb) (ih hrest')

theorem DenoteAll.nonneg {segments : List GoString} {parts : List (ℤ × ℤ)}
    (h : DenoteAll segments parts) : ∀ part ∈ parts, 0 ≤ part.1 := by
  induction h with
  | nil => simp
  | cons hpart _ ih =>
    intro part hmem
    rcases List.mem_cons.mp hmem with rfl | hmem
    · exact hpart.nonneg
    · exact ih part hmem

/-- The loop gets to an endless range: all segments before it are in order. -/
def Stuck (segments : List GoString) : Prop :=
  ∃ before segment after, segments = before ++ segment :: after ∧
    (∀ s ∈ before, ∃ a b, Denotes (trimSpace s) a b) ∧ Endless (trimSpace segment)

theorem Stuck.diverges {segments : List GoString} (h : Stuck segments) (fuel : ℕ)
    (result : List Int64) : parseSegments fuel segments result = none := by
  obtain ⟨before, segment, after, rfl, hbefore, hend⟩ := h
  induction before generalizing result with
  | nil => rw [List.nil_append, parseSegments, hend.diverges]
  | cons s before ih =>
    obtain ⟨a, b, hdenotes⟩ := hbefore s List.mem_cons_self
    obtain ⟨r, hr⟩ := hdenotes.not_error fuel result
    rw [List.cons_append, parseSegments, hr]
    cases r with
    | none => rfl
    | some result' => exact ih result' fun t ht => hbefore t (List.mem_cons_of_mem _ ht)

/-- The loop ends, with the numbers of all segments or with an error, unless it
gets stuck. -/
theorem parseSegments_cases {segments : List GoString} (hstuck : ¬ Stuck segments)
    (result : List Int64) :
    (∃ parts result' least, DenoteAll segments parts ∧
      (∀ fuel, least ≤ fuel → parseSegments fuel segments result = some (result', none)) ∧
      result'.map Int64.toInt =
        result.map Int64.toInt ++ parts.flatMap fun part => intRange part.1 part.2) ∨
    ((∃ segment ∈ segments, ∀ a b, ¬ Denotes (trimSpace segment) a b) ∧
      ∃ err least, ∀ fuel, least ≤ fuel → parseSegments fuel segments result = some ([], some err)) := by
  induction segments generalizing result with
  | nil => exact Or.inl ⟨[], result, 0, .nil, fun _ _ => rfl, by simp⟩
  | cons segment segments ih =>
    by_cases hdenotes : ∃ a b, Denotes (trimSpace segment) a b
    · obtain ⟨a, b, hpart⟩ := hdenotes
      have hend : ¬ Endless (trimSpace segment) := fun hend =>
        hstuck ⟨[], segment, segments, rfl, by simp, hend⟩
      have hrest : ¬ Stuck segments := by
        rintro ⟨before, s, after, rfl, hbefore, hs⟩
        refine hstuck ⟨segment :: before, s, after, rfl, fun t ht => ?_, hs⟩
        rcases List.mem_cons.mp ht with rfl | ht
        · exact ⟨a, b, hpart⟩
        · exact hbefore t ht
      obtain ⟨result₁, least₁, hparse, hval⟩ := parseSegment_denotes hpart hend result
      have hstep : ∀ fuel, least₁ ≤ fuel →
          parseSegments fuel (segment :: segments) result = parseSegments fuel segments result₁ := by
        intro fuel hfuel
        rw [parseSegments, hparse fuel hfuel]
      rcases ih hrest result₁ with ⟨parts, result', least, hparts, heq, hval'⟩ |
        ⟨⟨s, hs, hbad⟩, err, least, heq⟩
      · refine Or.inl ⟨(a, b) :: parts, result', max least₁ least, .cons hpart hparts,
          fun fuel hfuel => ?_, ?_⟩
        · rw [hstep fuel (le_trans (le_max_left _ _) hfuel)]
          exact heq fuel (le_trans (le_max_right _ _) hfuel)
        · rw [hval', hval, List.append_assoc, List.flatMap_cons]
      · refine Or.inr ⟨⟨s, List.mem_cons_of_mem _ hs, hbad⟩, err, max least₁ least,
          fun fuel hfuel => ?_⟩
        rw [hstep fuel (le_trans (le_max_left _ _) hfuel)]
        exact heq fuel (le_trans (le_max_right _ _) hfuel)
    · rw [not_exists] at hdenotes
      have hbad : ∀ a b, ¬ Denotes (trimSpace segment) a b := fun a b h => hdenotes a ⟨b, h⟩
      obtain ⟨err, herr⟩ := parseSegment_error hbad result
      refine Or.inr ⟨⟨segment, List.mem_cons_self, hbad⟩, err, 0, fun fuel _ => ?_⟩
      rw [parseSegments, herr fuel]

theorem parseSegments_mono {fuel fuel' : ℕ} (hfuel : fuel ≤ fuel') {segments : List GoString}
    {result : List Int64} {r : List Int64 × Option Errorf}
    (h : parseSegments fuel segments result = some r) :
    parseSegments fuel' segments result = some r := by
  induction segments generalizing result with
  | nil => exact h
  | cons segment segments ih =>
    rw [parseSegments] at h ⊢
    rcases hseg : parseSegment fuel segment result with _ | err | result'
    · rw [hseg] at h
      exact absurd h (by simp)
    · rw [hseg] at h
      rw [parseSegment_mono hfuel hseg]
      exact h
    · rw [hseg] at h
      rw [parseSegment_mono hfuel hseg]
      exact ih h

/-- Whatever fuel it took: an answer tells whether the string is in the grammar,
and which numbers it denotes. -/
theorem parseCPUs_spec {fuel : ℕ} {s : GoString} {result : List Int64} {err : Option Errorf}
    (h : parseCPUs fuel s = some (result, err)) :
    (err = none ∧ ∃ parts, DenoteAll (s.splitOn comma) parts ∧
      result.map Int64.toInt = parts.flatMap fun part => intRange part.1 part.2) ∨
    (err ≠ none ∧ ∀ parts, ¬ DenoteAll (s.splitOn comma) parts) := by
  have hstuck : ¬ Stuck (s.splitOn comma) := by
    intro hstuck
    rw [parseCPUs, hstuck.diverges] at h
    exact absurd h (by simp)
  rcases parseSegments_cases hstuck [] with ⟨parts, result', least, hparts, heq, hval⟩ |
    ⟨⟨segment, hsegment, hbad⟩, err', least, heq⟩
  · have hmore := parseSegments_mono (le_max_left fuel least) h
    rw [heq _ (le_max_right fuel least)] at hmore
    obtain ⟨rfl, rfl⟩ := Prod.mk.inj (Option.some_inj.mp hmore)
    exact Or.inl ⟨rfl, parts, hparts, by simpa using hval⟩
  · have hmore := parseSegments_mono (le_max_left fuel least) h
    rw [heq _ (le_max_right fuel least)] at hmore
    obtain ⟨rfl, rfl⟩ := Prod.mk.inj (Option.some_inj.mp hmore)
    refine Or.inr ⟨by simp, fun parts hparts => ?_⟩
    obtain ⟨a, b, hdenotes⟩ := hparts.forall segment hsegment
    exact hbad a b hdenotes

theorem mem_intRange {a b n : ℤ} : n ∈ intRange a b ↔ a ≤ n ∧ n ≤ b := by
  rw [intRange, List.mem_map]
  constructor
  · rintro ⟨k, hk, rfl⟩
    have hlt := List.mem_range.mp hk
    omega
  · rintro ⟨ha, hb⟩
    exact ⟨(n - a).toNat, List.mem_range.mpr (by omega), by omega⟩

/-! ### Lists as the kernel prints them -/

/-- A CPU, or a range of CPUs. -/
def renderRange (first last : ℕ) : GoString :=
  if first = last then decimal first else decimal first ++ dash :: decimal last

/-- A range of CPUs, with white space around it. -/
structure PaddedRange where
  left : GoString
  first : ℕ
  last : ℕ
  right : GoString
  spacesLeft : IsSpaces left
  spacesRight : IsSpaces right
  first_le_last : first ≤ last
  last_lt : last < 2 ^ 63 - 1

def PaddedRange.text (r : PaddedRange) : GoString :=
  r.left ++ (renderRange r.first r.last ++ r.right)

def renderCpuList (rs : List PaddedRange) : GoString :=
  [comma].intercalate (rs.map PaddedRange.text)

theorem renderRange_ends (first last : ℕ) :
    ∃ b c front back, renderRange first last = b :: front ∧ renderRange first last = back ++ [c] ∧
      isDigit b = true ∧ isDigit c = true := by
  obtain ⟨b, front, hb⟩ := List.exists_cons_of_ne_nil (decimal_ne_nil first)
  have hbdigit : isDigit b = true := isDigit_of_mem_decimal (by rw [hb]; exact List.mem_cons_self)
  have hback : ∀ n, ∃ back c, decimal n = back ++ [c] ∧ isDigit c = true := by
    intro n
    have hsplit := List.dropLast_append_getLast (decimal_ne_nil n)
    exact ⟨_, _, hsplit.symm, isDigit_of_mem_decimal (List.getLast_mem _)⟩
  rw [renderRange]
  split_ifs with heq
  · obtain ⟨back, c, hc, hcdigit⟩ := hback first
    exact ⟨b, c, front, back, hb, hc, hbdigit, hcdigit⟩
  · obtain ⟨back, c, hc, hcdigit⟩ := hback last
    refine ⟨b, c, front ++ dash :: decimal last, decimal first ++ dash :: back, ?_, ?_, hbdigit,
      hcdigit⟩
    · rw [hb]
      rfl
    · rw [hc, List.append_assoc]
      rfl

theorem PaddedRange.trimSpace_text (r : PaddedRange) :
    trimSpace r.text = renderRange r.first r.last := by
  obtain ⟨b, c, front, back, hb, hc, hbdigit, hcdigit⟩ := renderRange_ends r.first r.last
  exact trimSpace_pad r.spacesLeft r.spacesRight hb hc (noneStarts_of_isDigit hbdigit).1
    (noneStarts_of_isDigit hcdigit).2

theorem PaddedRange.denotes (r : PaddedRange) : Denotes (trimSpace r.text) r.first r.last := by
  have hlast : r.last < 2 ^ 63 := lt_of_lt_of_le r.last_lt (Nat.sub_le _ _)
  have hfirst : r.first < 2 ^ 63 := lt_of_le_of_lt r.first_le_last hlast
  have hint : ∀ {n : ℕ}, n < 2 ^ 63 → (Int64.ofNat n).toInt = n := fun hn =>
    Int64.toInt_ofNat_of_lt hn
  have hdash : ∀ n, dash ∉ decimal n := notMem_decimal rfl
  rw [r.trimSpace_text, renderRange]
  split_ifs with heq
  · rw [← heq, ← hint hfirst]
    exact .single (hdash _) (atoi_decimal hfirst)
  · rw [← hint hfirst, ← hint hlast]
    refine .range rfl (hdash _) (hdash _) (atoi_decimal hfirst) (atoi_decimal hlast) ?_
    rw [Int64.le_iff_toInt_le, hint hfirst, hint hlast]
    exact_mod_cast r.first_le_last

theorem PaddedRange.not_endless (r : PaddedRange) : ¬ Endless (trimSpace r.text) := by
  rintro ⟨lo, hi, a, hs, hlo, hhi, ha, hb⟩
  have hle : a ≤ Int64.maxValue := by
    rw [Int64.le_iff_toInt_le]
    exact a.toInt_le
  obtain ⟨-, hlast⟩ := r.denotes.unique (.range hs hlo hhi ha hb hle)
  have hlt := r.last_lt
  rw [show Int64.maxValue.toInt = 2 ^ 63 - 1 from rfl] at hlast
  omega

theorem PaddedRange.comma_notMem (r : PaddedRange) : comma ∉ r.text := by
  have hrender : comma ∉ renderRange r.first r.last := by
    rw [renderRange]
    split_ifs
    · exact notMem_decimal rfl _
    · rw [List.mem_append, List.mem_cons, not_or, not_or]
      exact ⟨notMem_decimal rfl _, by decide, notMem_decimal rfl _⟩
  rw [PaddedRange.text, List.mem_append, List.mem_append, not_or, not_or]
  exact ⟨r.spacesLeft.notMem (by decide), hrender, r.spacesRight.notMem (by decide)⟩

theorem splitOn_renderCpuList {rs : List PaddedRange} (hrs : rs ≠ []) :
    (renderCpuList rs).splitOn comma = rs.map PaddedRange.text := by
  refine List.splitOn_intercalate comma (fun text htext => ?_) (by simpa using hrs)
  obtain ⟨r, -, rfl⟩ := List.mem_map.mp htext
  exact r.comma_notMem

theorem denoteAll_texts (rs : List PaddedRange) :
    DenoteAll (rs.map PaddedRange.text) (rs.map fun r => ((r.first : ℤ), (r.last : ℤ))) := by
  induction rs with
  | nil => exact .nil
  | cons r rs ih => exact .cons r.denotes ih

theorem not_stuck_texts (rs : List PaddedRange) : ¬ Stuck (rs.map PaddedRange.text) := by
  rintro ⟨before, segment, after, heq, -, hend⟩
  have hmem : segment ∈ rs.map PaddedRange.text := by
    rw [heq]
    simp
  obtain ⟨r, -, rfl⟩ := List.mem_map.mp hmem
  exact r.not_endless hend

/-! ### The results -/

/-- **`parseCPUs` accepts exactly the CPU lists.**  (1) On a string without a
range up to the largest `int` it returns; there is no error iff every segment is
in the grammar, the result then has the numbers of all segments in order, none
of them negative, and with an error there is no list.  (2) A list that the
kernel prints is read back.  (3) The empty string is an error. -/
theorem parse_cpus_grammar :
    (∀ s : GoString, (∀ segment ∈ s.splitOn comma, ¬ Endless (trimSpace segment)) →
      ∃ result err least, (∀ fuel, least ≤ fuel → parseCPUs fuel s = some (result, err)) ∧
        (err = none ↔ ∀ segment ∈ s.splitOn comma, ∃ a b, Denotes (trimSpace segment) a b) ∧
        (err = none → ∃ parts, DenoteAll (s.splitOn comma) parts ∧
          (result.map Int64.toInt = parts.flatMap fun part => intRange part.1 part.2) ∧
          ∀ n ∈ result, 0 ≤ n.toInt) ∧
        (err ≠ none → result = [])) ∧
    (∀ rs : List PaddedRange, rs ≠ [] →
      ∃ result least, (∀ fuel, least ≤ fuel →
          parseCPUs fuel (renderCpuList rs) = some (result, none)) ∧
        result.map Int64.toInt = rs.flatMap fun r => intRange r.first r.last) ∧
    ∀ fuel, parseCPUs fuel [] = some ([], some ⟨"invalid number: %s", []⟩) := by
  refine ⟨fun s hends => ?_, fun rs hrs => ?_, fun fuel => rfl⟩
  · have hstuck : ¬ Stuck (s.splitOn comma) := by
      rintro ⟨before, segment, after, heq, -, hend⟩
      exact hends segment (by rw [heq]; simp) hend
    rcases parseSegments_cases hstuck [] with ⟨parts, result, least, hparts, heq, hval⟩ |
      ⟨⟨segment, hsegment, hbad⟩, err, least, heq⟩
    · refine ⟨result, none, least, heq, by simpa using hparts.forall,
        fun _ => ⟨parts, hparts, by simpa using hval, ?_⟩, by simp⟩
      intro n hn
      have hmem : n.toInt ∈ result.map Int64.toInt := List.mem_map_of_mem hn
      rw [hval, List.map_nil, List.nil_append, List.mem_flatMap] at hmem
      obtain ⟨part, hpart, hrange⟩ := hmem
      obtain ⟨k, -, hk⟩ := List.mem_map.mp hrange
      have hnonneg := hparts.nonneg part hpart
      omega
    · refine ⟨[], some err, least, heq, ?_, by simp, fun _ => rfl⟩
      refine ⟨by simp, fun hall => ?_⟩
      obtain ⟨a, b, hdenotes⟩ := hall segment hsegment
      exact absurd hdenotes (hbad a b)
  · have hsplit := splitOn_renderCpuList hrs
    rcases parseSegments_cases (not_stuck_texts rs) [] with
      ⟨parts, result, least, hparts, heq, hval⟩ | ⟨⟨segment, hsegment, hbad⟩, -⟩
    · refine ⟨result, least, fun fuel hfuel => by rw [parseCPUs, hsplit, heq fuel hfuel], ?_⟩
      rw [hval, ← (denoteAll_texts rs).unique hparts, List.flatMap_map]
      rfl
    · obtain ⟨a, b, hdenotes⟩ := (denoteAll_texts rs).forall segment hsegment
      exact absurd hdenotes (hbad a b)

example : parseCPUs 4 (lit "0-2, 5") = some ([0, 1, 2, 5], none) := by decide

/-- **`parseCPUs` ends exactly when it reaches no range up to the largest
`int`.** -/
theorem parse_cpus_terminates_iff (s : GoString) :
    (∃ fuel, (parseCPUs fuel s).isSome) ↔ ¬ Stuck (s.splitOn comma) := by
  constructor
  · rintro ⟨fuel, hsome⟩ hstuck
    rw [parseCPUs, hstuck.diverges] at hsome
    exact absurd hsome (by simp)
  · intro hstuck
    rcases parseSegments_cases hstuck [] with ⟨-, result, least, -, heq, -⟩ | ⟨-, err, least, heq⟩
    · exact ⟨least, by rw [parseCPUs, heq least le_rfl]; rfl⟩
    · exact ⟨least, by rw [parseCPUs, heq least le_rfl]; rfl⟩

/-- All numbers that are no negative ones. -/
def allInts : GoString := lit "0-9223372036854775807"

theorem all_ints_diverge : ¬ ∃ fuel, (parseCPUs fuel allInts).isSome := by
  rintro ⟨fuel, hsome⟩
  have hstuck : Stuck (allInts.splitOn comma) :=
    ⟨[], allInts, [], by decide, by simp, [0x30], decimal (2 ^ 63 - 1), 0, by decide +kernel,
      by decide, by decide +kernel, by decide, by decide +kernel⟩
  rw [parseCPUs, hstuck.diverges] at hsome
  exact absurd hsome (by simp)

end ScxGoland
