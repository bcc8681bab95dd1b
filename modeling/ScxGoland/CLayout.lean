/-
The memory image of C structs of 32- and 64-bit integers, little-endian, under
natural alignment: a field starts at the next multiple of its size, and the
struct is padded to a multiple of its largest field.

`Image vals data` says that the bytes `data` are a struct with the fields
`vals`, whatever its padding holds; `cRead kinds data` reads a struct of the
given field types.

* `cRead_of_image` — reading an image gives back its fields;
* `image_pack` — fields written one after the other (`pack`) are an image when
  the struct has no padding between them (`gapless`).
-/
import ScxGoland.LittleEndian

open LittleEndian

namespace CLayout

/-- The types of the fields. -/
inductive CKind where
  | s32
  | u64
deriving DecidableEq

/-- Size and alignment. -/
def CKind.size : CKind → ℕ
  | .s32 => 4
  | .u64 => 8

/-- The value of a field. -/
inductive CVal where
  | s32 (x : Int32)
  | u64 (x : UInt64)
deriving DecidableEq

namespace CVal

def kind : CVal → CKind
  | .s32 _ => .s32
  | .u64 _ => .u64

def bytes : CVal → List UInt8
  | .s32 x => leBytes 4 x.toUInt32.toNat
  | .u64 x => leBytes 8 x.toNat

@[simp] theorem bytes_length (v : CVal) : v.bytes.length = v.kind.size := by
  cases v with
  | s32 x => exact leBytes_length 4 _
  | u64 x => exact leBytes_length 8 _

end CVal

/-- The least multiple of `a` that is not below `n`. -/
def alignUp (n a : ℕ) : ℕ := (n + a - 1) / a * a

/-- Where the last of the fields ends, if the first may start at `off`. -/
def endOf (off : ℕ) : List CKind → ℕ
  | [] => off
  | k :: ks => endOf (alignUp off k.size + k.size) ks

/-- `sizeof` a struct with these fields. -/
def sizeof (ks : List CKind) : ℕ := alignUp (endOf 0 ks) ((ks.map CKind.size).foldr max 1)

/-! ### Reading -/

def readAt (off : ℕ) (data : List UInt8) : CKind → CVal
  | .s32 => .s32 (UInt32.ofNat (field off 4 data)).toInt32
  | .u64 => .u64 (UInt64.ofNat (field off 8 data))

def readFrom (off : ℕ) (data : List UInt8) : List CKind → List CVal
  | [] => []
  | k :: ks => readAt (alignUp off k.size) data k ::
      readFrom (alignUp off k.size + k.size) data ks

/-- Read a struct. -/
def cRead (ks : List CKind) (data : List UInt8) : List CVal := readFrom 0 data ks

/-- The fields stand in the byte string, the first one not before `off`. -/
def StoredFrom (off : ℕ) (data : List UInt8) : List CVal → Prop
  | [] => True
  | v :: vs => (data.drop (alignUp off v.kind.size)).take v.kind.size = v.bytes ∧
      StoredFrom (alignUp off v.kind.size + v.kind.size) data vs

/-- The byte string is a struct with these fields. -/
structure Image (vals : List CVal) (data : List UInt8) : Prop where
  length_eq : data.length = sizeof (vals.map CVal.kind)
  stored : StoredFrom 0 data vals

theorem readAt_of_stored {off : ℕ} {data : List UInt8} {v : CVal}
    (h : (data.drop off).take v.kind.size = v.bytes) : readAt off data v.kind = v := by
  cases v with
  | s32 x =>
    have hlt : x.toUInt32.toNat < 256 ^ 4 := x.toUInt32.toNat_lt
    have hfield : field off 4 data = x.toUInt32.toNat := by
      rw [field, show (data.drop off).take 4 = leBytes 4 x.toUInt32.toNat from h, leNat_leBytes,
        Nat.mod_eq_of_lt hlt]
    show CVal.s32 (UInt32.ofNat (field off 4 data)).toInt32 = _
    rw [hfield, UInt32.ofNat_toNat]
    exact congrArg CVal.s32 (Int32.toInt32_toUInt32 x)
  | u64 x =>
    have hlt : x.toNat < 256 ^ 8 := x.toNat_lt
    have hfield : field off 8 data = x.toNat := by
      rw [field, show (data.drop off).take 8 = leBytes 8 x.toNat from h, leNat_leBytes,
        Nat.mod_eq_of_lt hlt]
    show CVal.u64 (UInt64.ofNat (field off 8 data)) = _
    rw [hfield, UInt64.ofNat_toNat]

theorem readFrom_of_stored {off : ℕ} {data : List UInt8} {vals : List CVal}
    (h : StoredFrom off data vals) : readFrom off data (vals.map CVal.kind) = vals := by
  induction vals generalizing off with
  | nil => rfl
  | cons v vs ih =>
    obtain ⟨hv, hvs⟩ := h
    rw [List.map_cons, readFrom, readAt_of_stored hv, ih hvs]

theorem cRead_of_image {vals : List CVal} {data : List UInt8} (h : Image vals data) :
    cRead (vals.map CVal.kind) data = vals := readFrom_of_stored h.stored

/-! ### Writing -/

/-- The fields one after the other. -/
def pack (vals : List CVal) : List UInt8 := vals.flatMap CVal.bytes

/-- No padding before any of the fields. -/
def gapless (off : ℕ) : List CKind → Bool
  | [] => true
  | k :: ks => alignUp off k.size = off ∧ gapless (off + k.size) ks

theorem storedFrom_pack {vals : List CVal} (pre post : List UInt8)
    (h : gapless pre.length (vals.map CVal.kind) = true) :
    StoredFrom pre.length (pre ++ (pack vals ++ post)) vals := by
  induction vals generalizing pre with
  | nil => trivial
  | cons v vs ih =>
    simp only [List.map_cons, gapless, Bool.decide_and, Bool.decide_eq_true, Bool.and_eq_true,
      decide_eq_true_eq] at h
    obtain ⟨halign, hrest⟩ := h
    have hpack : pack (v :: vs) = v.bytes ++ pack vs := rfl
    have hlen : (pre ++ v.bytes).length = pre.length + v.kind.size := by
      rw [List.length_append, CVal.bytes_length]
    refine ⟨?_, ?_⟩
    · rw [halign, List.drop_left, hpack, List.append_assoc, List.take_left' v.bytes_length]
    · rw [halign, ← hlen, hpack, List.append_assoc, ← List.append_assoc pre]
      exact ih _ (by rw [hlen]; exact hrest)

theorem image_pack {vals : List CVal} {pad : List UInt8}
    (hgap : gapless 0 (vals.map CVal.kind) = true)
    (hlen : (pack vals ++ pad).length = sizeof (vals.map CVal.kind)) :
    Image vals (pack vals ++ pad) :=
  ⟨hlen, storedFrom_pack [] pad hgap⟩

end CLayout
