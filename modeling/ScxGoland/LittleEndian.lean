/-
Little-endian byte strings.

`leBytes k n` is the `k`-byte little-endian image of `n`, `leNat bs` the number
that a byte string denotes, and `field off k bs` the number stored in the `k`
bytes of `bs` from offset `off` on (bytes past the end read as `0`).

* `leNat_leBytes` — reading back what was written loses exactly what does not
  fit: `leNat (leBytes k n) = n % 256 ^ k`;
* `field_append_right` — a field past the first part of a concatenation is a
  field of the second, which is how a record written field by field is read back
  at fixed offsets.
-/
import Mathlib.Data.List.Basic
import Mathlib.Tactic.Ring

namespace LittleEndian

/-- The `k` least significant bytes of `n`, least significant first. -/
def leBytes : ℕ → ℕ → List UInt8
  | 0, _ => []
  | k + 1, n => UInt8.ofNat n :: leBytes k (n / 256)

/-- The number a little-endian byte string denotes. -/
def leNat : List UInt8 → ℕ
  | [] => 0
  | b :: bs => b.toNat + 256 * leNat bs

/-- The number stored in the `k` bytes at offset `off`. -/
def field (off k : ℕ) (bs : List UInt8) : ℕ :=
  leNat ((bs.drop off).take k)

@[simp] theorem leBytes_length (k n : ℕ) : (leBytes k n).length = k := by
  induction k generalizing n with
  | zero => rfl
  | succ k ih => simp [leBytes, ih]

/-- Reading back a `k`-byte image keeps the number modulo `256 ^ k`. -/
theorem leNat_leBytes (k n : ℕ) : leNat (leBytes k n) = n % 256 ^ k := by
  induction k generalizing n with
  | zero => simp [leBytes, leNat, Nat.mod_one]
  | succ k ih =>
    have hbyte : (UInt8.ofNat n).toNat = n % 256 := UInt8.toNat_ofNat'
    rw [leBytes, leNat, ih, hbyte, pow_succ, mul_comm (256 ^ k) 256, Nat.mod_mul]

/-- A field that starts past the first part of a concatenation. -/
theorem field_append_right {off k : ℕ} {bs cs : List UInt8} (h : bs.length ≤ off) :
    field off k (bs ++ cs) = field (off - bs.length) k cs := by
  rw [field, field, List.drop_append, List.drop_eq_nil_of_le h, List.nil_append]

/-- The first field of a byte string that starts with a `k`-byte image. -/
theorem field_zero_leBytes_append (k n : ℕ) (cs : List UInt8) :
    field 0 k (leBytes k n ++ cs) = n % 256 ^ k := by
  rw [field, List.drop_zero, List.take_left' (leBytes_length k n), leNat_leBytes]

end LittleEndian
