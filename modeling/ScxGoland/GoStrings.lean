/-
Strings of Go, as byte sequences, and what the packages `strings` and `strconv`
do with them.

A Go string is a sequence of bytes, in most cases valid UTF-8 but not by
necessity.  `trimSpace` is `strings.TrimSpace`, which decodes runes at either
end of the string: the runes of `unicode.IsSpace` are listed by their encodings
(`spaces`), none of which is a prefix or a suffix of another.  `strings.Split`
with a one-byte separator is `List.splitOn`.  `atoi` is `strconv.Atoi` on a
machine with 64-bit `int`s, `parseUint` is `strconv.ParseUint` in base 10.

* `splitOn_eq_pair_iff` — a string that splits in two has the separator once;
* `trimSpace_pad` — surrounding white space is removed;
* `atoi_decimal`, `parseUint_decimal` — a number in decimal notation is read back.
-/
import Mathlib.Data.List.Basic
import Mathlib.Data.Nat.Digits.Defs
import Mathlib.Tactic.IntervalCases

namespace GoStrings

/-- A string of Go. -/
abbrev GoString := List UInt8

/-- A string literal. -/
def lit (s : String) : GoString := s.toUTF8.data.toList

/-- The ASCII code of `-`. -/
def dash : UInt8 := 0x2d

/-- The ASCII code of `,`. -/
def comma : UInt8 := 0x2c

/-! ### `strings.Split` -/

section Split

variable {α : Type*} [BEq α] [LawfulBEq α] {a : α}

theorem notMem_of_mem_splitOn {s part : List α} (h : part ∈ s.splitOn a) : a ∉ part := by
  induction s generalizing part with
  | nil =>
    rw [List.splitOn_eq_singleton (by simp)] at h
    simp [List.mem_singleton.mp h]
  | cons b s ih =>
    rw [List.splitOn_cons_eq_if_modifyHead] at h
    split_ifs at h with hb
    · rcases List.mem_cons.mp h with rfl | h
      · simp
      · exact ih h
    · rcases hs : s.splitOn a with _ | ⟨part', parts⟩
      · exact absurd hs (List.splitOn_ne_nil a s)
      · rw [hs, List.modifyHead_cons] at h
        rcases List.mem_cons.mp h with rfl | h
        · rw [List.mem_cons, not_or]
          exact ⟨fun hab => hb (by simp [hab]), ih (by rw [hs]; exact List.mem_cons_self)⟩
        · exact ih (by rw [hs]; exact List.mem_cons_of_mem _ h)

theorem splitOn_eq_pair_iff {s lo hi : List α} :
    s.splitOn a = [lo, hi] ↔ s = lo ++ a :: hi ∧ a ∉ lo ∧ a ∉ hi := by
  constructor
  · intro h
    have hs : [a].intercalate (s.splitOn a) = s := List.intercalate_splitOn a
    rw [h] at hs
    refine ⟨by simpa [List.intercalate] using hs.symm, ?_, ?_⟩
    · exact notMem_of_mem_splitOn (by rw [h]; simp)
    · exact notMem_of_mem_splitOn (by rw [h]; simp)
  · rintro ⟨rfl, hlo, hhi⟩
    rw [List.splitOn_append_cons_self_of_not_mem hlo, List.splitOn_eq_singleton hhi]

end Split

/-! ### `strings.TrimSpace` -/

/-- The UTF-8 encodings of the runes that `unicode.IsSpace` accepts: the six
ASCII ones, U+0085, U+00A0, U+1680, U+2000 to U+200A, U+2028, U+2029, U+202F,
U+205F and U+3000. -/
def spaces : List GoString :=
  [[0x09], [0x0a], [0x0b], [0x0c], [0x0d], [0x20], [0xc2, 0x85], [0xc2, 0xa0],
    [0xe1, 0x9a, 0x80], [0xe2, 0x80, 0x80], [0xe2, 0x80, 0x81], [0xe2, 0x80, 0x82],
    [0xe2, 0x80, 0x83], [0xe2, 0x80, 0x84], [0xe2, 0x80, 0x85], [0xe2, 0x80, 0x86],
    [0xe2, 0x80, 0x87], [0xe2, 0x80, 0x88], [0xe2, 0x80, 0x89], [0xe2, 0x80, 0x8a],
    [0xe2, 0x80, 0xa8], [0xe2, 0x80, 0xa9], [0xe2, 0x80, 0xaf], [0xe2, 0x81, 0x9f],
    [0xe3, 0x80, 0x80]]

/-- Drop words of `code` from the front, at most `n` of them. -/
def dropWords (code : List GoString) : ℕ → GoString → GoString
  | 0, s => s
  | n + 1, s =>
    match code.find? (·.isPrefixOf s) with
    | some word => dropWords code n (s.drop word.length)
    | none => s

/-- `strings.TrimSpace`: the string without the white space at its start, and
then without that at its end. -/
def trimSpace (s : GoString) : GoString :=
  let left := dropWords spaces s.length s
  (dropWords (spaces.map List.reverse) left.length left.reverse).reverse

/-- In a prefix code the first word of a string can be read off. -/
def IsPrefixCode (code : List GoString) : Prop :=
  ∀ word ∈ code, ∀ s, code.find? (·.isPrefixOf (word ++ s)) = some word

theorem dropWords_flatten {code : List GoString} (hcode : IsPrefixCode code)
    {words : List GoString} (hwords : ∀ word ∈ words, word ∈ code) {s : GoString}
    (hs : code.find? (·.isPrefixOf s) = none) {n : ℕ} (hn : words.length ≤ n) :
    dropWords code n (words.flatten ++ s) = s := by
  induction words generalizing n with
  | nil =>
    cases n with
    | zero => rfl
    | succ n => simp [dropWords, hs]
  | cons word words ih =>
    cases n with
    | zero => exact absurd hn (by simp)
    | succ n =>
      have hword := hcode word (hwords word List.mem_cons_self) (words.flatten ++ s)
      rw [List.flatten_cons, List.append_assoc, dropWords, hword]
      dsimp only
      rw [List.drop_left]
      exact ih (fun word' h => hwords word' (List.mem_cons_of_mem _ h)) (by simpa using hn)

theorem isPrefixCode_spaces : IsPrefixCode spaces := by
  intro word hword s
  simp only [spaces, List.mem_cons, List.not_mem_nil, or_false] at hword
  rcases hword with rfl | rfl | rfl | rfl | rfl | rfl | rfl | rfl | rfl | rfl | rfl | rfl | rfl |
    rfl | rfl | rfl | rfl | rfl | rfl | rfl | rfl | rfl | rfl | rfl | rfl <;> rfl

theorem isPrefixCode_reverse_spaces : IsPrefixCode (spaces.map List.reverse) := by
  intro word hmem s
  obtain ⟨word, hword, rfl⟩ := List.mem_map.mp hmem
  simp only [spaces, List.mem_cons, List.not_mem_nil, or_false] at hword
  rcases hword with rfl | rfl | rfl | rfl | rfl | rfl | rfl | rfl | rfl | rfl | rfl | rfl | rfl |
    rfl | rfl | rfl | rfl | rfl | rfl | rfl | rfl | rfl | rfl | rfl | rfl <;> rfl

/-- No word of the code is empty or starts with this byte. -/
def noneStarts (code : List GoString) (b : UInt8) : Bool :=
  code.all fun word => word.head?.any (· ≠ b)

theorem find?_isPrefixOf_eq_none {code : List GoString} {b : UInt8}
    (hb : noneStarts code b = true) (s : GoString) :
    code.find? (·.isPrefixOf (b :: s)) = none := by
  rw [List.find?_eq_none]
  intro word hword
  have hstart := List.all_eq_true.mp hb word hword
  rcases word with _ | ⟨c, word⟩
  · exact absurd hstart (by simp)
  · have hne : c ≠ b := by simpa using hstart
    simp [List.isPrefixOf, hne]

/-- Each word has a byte, so that the length of a string bounds the number of
words at its start. -/
theorem length_le_length_flatten {words : List GoString} (h : ∀ word ∈ words, word ≠ []) :
    words.length ≤ words.flatten.length := by
  induction words with
  | nil => simp
  | cons word words ih =>
    have hword : 0 < word.length := List.length_pos_iff.mpr (h word List.mem_cons_self)
    have hwords := ih fun word' h' => h word' (List.mem_cons_of_mem _ h')
    rw [List.flatten_cons, List.length_append, List.length_cons]
    omega

/-- A string made of white space. -/
def IsSpaces (s : GoString) : Prop := ∃ words : List GoString, (∀ word ∈ words, word ∈ spaces) ∧
  s = words.flatten

theorem IsSpaces.notMem {s : GoString} (h : IsSpaces s) {b : UInt8}
    (hb : spaces.all fun word => b ∉ word) : b ∉ s := by
  obtain ⟨words, hwords, rfl⟩ := h
  intro hmem
  obtain ⟨word, hword, hbword⟩ := List.mem_flatten.mp hmem
  exact absurd hbword (by simpa using List.all_eq_true.mp hb word (hwords word hword))

/-- White space on either side of a string is trimmed, if the string itself starts
and ends with other bytes. -/
theorem trimSpace_pad {left right : GoString} (hleft : IsSpaces left) (hright : IsSpaces right)
    {first last : UInt8} {s front back : GoString} (hfirst : s = first :: front)
    (hlast : s = back ++ [last]) (hf : noneStarts spaces first = true)
    (hl : noneStarts (spaces.map List.reverse) last = true) :
    trimSpace (left ++ (s ++ right)) = s := by
  have hne : ∀ word ∈ spaces, word ≠ [] := by decide
  obtain ⟨lwords, hlw, rfl⟩ := hleft
  obtain ⟨rwords, hrw, rfl⟩ := hright
  -- the left end
  have hdropl : dropWords spaces (lwords.flatten ++ (s ++ rwords.flatten)).length
      (lwords.flatten ++ (s ++ rwords.flatten)) = s ++ rwords.flatten := by
    refine dropWords_flatten isPrefixCode_spaces hlw ?_ ?_
    · rw [hfirst]
      exact find?_isPrefixOf_eq_none hf _
    · have := length_le_length_flatten fun word h => hne word (hlw word h)
      rw [List.length_append]
      omega
  -- the right end, where the string is read backwards
  have hrev : (s ++ rwords.flatten).reverse =
      (rwords.map List.reverse).reverse.flatten ++ s.reverse := by
    rw [List.reverse_append, List.reverse_flatten]
  have hdropr : dropWords (spaces.map List.reverse) (s ++ rwords.flatten).length
      (s ++ rwords.flatten).reverse = s.reverse := by
    rw [hrev]
    refine dropWords_flatten isPrefixCode_reverse_spaces ?_ ?_ ?_
    · intro word hmem
      obtain ⟨word, hword, rfl⟩ := List.mem_map.mp (List.mem_reverse.mp hmem)
      exact List.mem_map_of_mem (hrw word hword)
    · rw [hlast, List.reverse_append]
      exact find?_isPrefixOf_eq_none hl _
    · have := length_le_length_flatten fun word h => hne word (hrw word h)
      rw [List.length_reverse, List.length_map, List.length_append]
      omega
  rw [trimSpace, hdropl, hdropr, List.reverse_reverse]

/-! ### `strconv.Atoi` -/

def isDigit (b : UInt8) : Bool := 0x30 ≤ b && b ≤ 0x39

/-- The ten digits, one by one. -/
theorem digit_cases {P : UInt8 → Prop} (hP : ∀ d < 10, P (UInt8.ofNat (48 + d))) {b : UInt8}
    (hb : isDigit b = true) : P b := by
  rw [isDigit, Bool.and_eq_true, decide_eq_true_eq, decide_eq_true_eq, UInt8.le_iff_toNat_le,
    UInt8.le_iff_toNat_le] at hb
  have hlo : 48 ≤ b.toNat := hb.1
  have hhi : b.toNat ≤ 57 := hb.2
  have hof := hP (b.toNat - 48) (by omega)
  rwa [Nat.add_sub_cancel' hlo, UInt8.ofNat_toNat] at hof

/-- A digit is not part of white space. -/
theorem noneStarts_of_isDigit {b : UInt8} (hb : isDigit b = true) :
    noneStarts spaces b = true ∧ noneStarts (spaces.map List.reverse) b = true :=
  digit_cases (P := fun b => noneStarts spaces b = true ∧
    noneStarts (spaces.map List.reverse) b = true) (by decide) hb

/-- The value of a string of digits. -/
def digitsValue (s : GoString) : ℕ := s.foldl (fun n b => 10 * n + (b.toNat - 48)) 0

/-- The number that a string of digits denotes; there must be one digit. -/
def unsigned (s : GoString) : Option ℕ :=
  if s ≠ [] ∧ s.all isDigit then some (digitsValue s) else none

/-- `strconv.Atoi`: an optional sign and decimal digits, in the range of an
`int`. -/
def atoi (s : GoString) : Option Int64 :=
  match s with
  | [] => none
  | b :: rest =>
    if b = dash then
      (unsigned rest).bind fun n => if n ≤ 2 ^ 63 then some (Int64.ofInt (-n)) else none
    else
      (unsigned (if b = 0x2b then rest else s)).bind fun n =>
        if n < 2 ^ 63 then some (Int64.ofNat n) else none

/-- A number without a minus sign is not negative. -/
theorem atoi_nonneg {s : GoString} {n : Int64} (hdash : dash ∉ s) (h : atoi s = some n) :
    0 ≤ n.toInt := by
  rcases s with _ | ⟨b, rest⟩
  · exact absurd h (by simp [atoi])
  · have hb : b ≠ dash := fun hb => hdash (by rw [hb]; exact List.mem_cons_self)
    rw [atoi, if_neg hb, Option.bind_eq_some_iff] at h
    obtain ⟨k, -, hk⟩ := h
    split_ifs at hk with hlt
    obtain rfl := Option.some_inj.mp hk
    rw [Int64.toInt_ofNat_of_lt hlt]
    exact Int.natCast_nonneg k

/-- Decimal notation. -/
def decimal (n : ℕ) : GoString :=
  if n = 0 then [0x30] else (Nat.digits 10 n).reverse.map fun d => UInt8.ofNat (48 + d)

theorem decimal_ne_nil (n : ℕ) : decimal n ≠ [] := by
  rw [decimal]
  split_ifs with hn
  · simp
  · simpa using Nat.digits_ne_nil_iff_ne_zero.mpr hn

theorem isDigit_of_lt {d : ℕ} (hd : d < 10) : isDigit (UInt8.ofNat (48 + d)) = true := by
  interval_cases d <;> rfl

theorem isDigit_of_mem_decimal {n : ℕ} {b : UInt8} (hb : b ∈ decimal n) : isDigit b = true := by
  rw [decimal] at hb
  split_ifs at hb
  · rw [List.mem_singleton.mp hb]
    rfl
  · obtain ⟨d, hd, rfl⟩ := List.mem_map.mp hb
    exact isDigit_of_lt (Nat.digits_lt_base (by decide) (List.mem_reverse.mp hd))

theorem notMem_decimal {b : UInt8} (hb : isDigit b = false) (n : ℕ) : b ∉ decimal n := by
  intro hmem
  rw [isDigit_of_mem_decimal hmem] at hb
  exact absurd hb (by simp)

theorem digitsValue_decimal (n : ℕ) : digitsValue (decimal n) = n := by
  by_cases hn : n = 0
  · subst hn
    rfl
  · have hdigit : ∀ d ∈ Nat.digits 10 n, (UInt8.ofNat (48 + d)).toNat - 48 = d := by
      intro d hd
      have hlt : d < 10 := Nat.digits_lt_base (by decide) hd
      rw [UInt8.toNat_ofNat_of_lt' (by rw [UInt8.size]; omega)]
      omega
    -- the digits are read from the most significant one on
    rw [digitsValue, decimal, if_neg hn, List.foldl_map, List.foldl_reverse]
    conv_rhs => rw [← Nat.ofDigits_digits 10 n, Nat.ofDigits_eq_foldr]
    refine List.foldr_ext _ _ _ fun d hd acc => ?_
    rw [hdigit d hd, Nat.cast_id, Nat.add_comm]

/-- `strconv.Atoi` reads decimal notation back. -/
theorem atoi_decimal {n : ℕ} (hn : n < 2 ^ 63) : atoi (decimal n) = some (Int64.ofNat n) := by
  have hunsigned : unsigned (decimal n) = some n := by
    rw [unsigned, if_pos ⟨decimal_ne_nil n, List.all_eq_true.mpr fun b => isDigit_of_mem_decimal⟩,
      digitsValue_decimal]
  rcases hdec : decimal n with _ | ⟨b, rest⟩
  · exact absurd hdec (decimal_ne_nil n)
  · have hb : isDigit b = true := isDigit_of_mem_decimal (by rw [hdec]; exact List.mem_cons_self)
    have hminus : b ≠ dash := by
      rintro rfl
      exact absurd hb (by decide)
    have hplus : b ≠ 0x2b := by
      rintro rfl
      exact absurd hb (by decide)
    rw [hdec] at hunsigned
    rw [atoi, if_neg hminus, if_neg hplus, hunsigned, Option.bind_some, if_pos hn]

/-! ### `strconv.ParseUint` -/

/-- `strconv.ParseUint` in base 10: decimal digits without a sign, in the range of so
many bits. -/
def parseUint (bitSize : ℕ) (s : GoString) : Option ℕ :=
  (unsigned s).bind fun n => if n < 2 ^ bitSize then some n else none

theorem parseUint_decimal {bitSize n : ℕ} (hn : n < 2 ^ bitSize) :
    parseUint bitSize (decimal n) = some n := by
  have hdigits : decimal n ≠ [] ∧ (decimal n).all isDigit = true :=
    ⟨decimal_ne_nil n, List.all_eq_true.mpr fun b => isDigit_of_mem_decimal⟩
  rw [parseUint, unsigned, if_pos hdigits, digitsValue_decimal, Option.bind_some, if_pos hn]

end GoStrings
