/-
How `main` learns that the scheduler has been stopped.

The kernel leaves a `struct user_exit_info` in the `.data` section of the BPF program;
`GetUeiData` reads it with `binary.Read`, field after field, and `main` looks at it once a
second.  The C struct has four bytes of padding behind `kind`, which the Go struct
declares as a field.

* `getUeiData_image` — Go reads what C has stored, whatever the padding holds and
  whatever follows in the section;
* `exit_noticed_iff` — `main` ends exactly on a signal, at a tick that finds an exit
  recorded, or at one that cannot read the section; the texts that a tick reads are
  those of the kernel.
-/
import ScxGoland.Records

open LittleEndian

namespace ScxGoland

def ueiReasonLen : ℕ := 128
def ueiMsgLen : ℕ := 1024

/-! ### The C side -/

/-- A C string in an array of `n` bytes: the text, its terminator, and what happens to be
behind it. -/
structure CText (n : ℕ) where
  text : Bytes
  rest : Bytes
  noNul : 0 ∉ text
  fits : text.length + 1 + rest.length = n

def CText.bytes {n : ℕ} (t : CText n) : Bytes := t.text ++ 0 :: t.rest

/-- `struct user_exit_info`. -/
structure ExitRecord where
  kind : Int32
  exitCode : Int64
  reason : CText ueiReasonLen
  msg : CText ueiMsgLen

/-- Its memory image: `exit_code` is aligned to eight bytes. -/
def ExitRecord.image (r : ExitRecord) (pad : UInt32) : Bytes :=
  s32Bytes r.kind ++ (leBytes 4 pad.toNat ++ (u64Bytes r.exitCode.toUInt64 ++
    (r.reason.bytes ++ r.msg.bytes)))

/-! ### The Go side -/

/-- `UserExitInfo` of `uei.go`. -/
structure UserExitInfo where
  kind : Int32
  paid : UInt32
  exitCode : Int64
  reason : Bytes
  message : Bytes

/-- The size of a `UserExitInfo` for `binary.Read`. -/
def sizeofUserExitInfo : ℕ := 4 + 4 + 8 + ueiReasonLen + ueiMsgLen

/-- `GetUeiData`: there may be no map, `GetValue` may fail, and the value may be too short
for `binary.Read`. -/
def getUeiData (uei : Option (Except String Bytes)) : Except String UserExitInfo :=
  match uei with
  | none => .error "UeiMap is nil"
  | some (.error err) => .error err
  | some (.ok b) =>
    if b = [] then .error "EOF"
    else if b.length < sizeofUserExitInfo then .error "unexpected EOF"
    else .ok {
      kind := getS32 0 b
      paid := UInt32.ofNat (field 4 4 b)
      exitCode := (getU64 8 b).toInt64
      reason := (b.drop 16).take ueiReasonLen
      message := (b.drop (16 + ueiReasonLen)).take ueiMsgLen }

/-- `Stopped`. -/
def stopped (uei : Option (Except String Bytes)) : Bool :=
  match getUeiData uei with
  | .error _ => true
  | .ok uei => uei.kind ≠ 0 ∨ uei.exitCode ≠ 0

/-- `C.GoString`: the bytes before the first NUL, which must be there. -/
def goString (mem : Bytes) : Option Bytes :=
  if 0 ∈ mem then some (mem.takeWhile (· ≠ 0)) else none

/-- `GetReason`; a reason without a NUL would be read on into the message. -/
def UserExitInfo.getReason (uei : UserExitInfo) : Option Bytes :=
  goString (uei.reason ++ uei.message)

def UserExitInfo.getMessage (uei : UserExitInfo) : Option Bytes := goString uei.message

/-- What the main goroutine waits for. -/
inductive MainEvent where
  -- `SIGINT` or `SIGTERM`
  | signal
  -- a tick of the timer, with what `GetUeiData` finds in the map
  | tick (uei : Option (Except String Bytes))

/-- The loop at the end of `main`: the events that it has not received when it ends, if it
does. -/
def mainLoop : List MainEvent → Option (List MainEvent)
  | [] => none
  | .signal :: events => some events
  | .tick uei :: events => if stopped uei then some events else mainLoop events

/-! ### Reading back -/

theorem CText.length_bytes {n : ℕ} (t : CText n) : t.bytes.length = n := by
  have hfits := t.fits
  rw [CText.bytes, List.length_append, List.length_cons]
  omega

theorem goString_bytes {n : ℕ} (t : CText n) (mem : Bytes) :
    goString (t.bytes ++ mem) = some t.text := by
  have hnul : (0 : UInt8) ∈ t.bytes ++ mem := by simp [CText.bytes]
  have htext : ∀ b ∈ t.text, decide (b ≠ 0) = true := by
    intro b hb
    exact decide_eq_true fun h => t.noNul (h ▸ hb)
  rw [goString, if_pos hnul, CText.bytes, List.append_assoc,
    List.takeWhile_append_of_pos htext, List.cons_append, List.takeWhile_cons]
  simp

theorem ExitRecord.length_image (r : ExitRecord) (pad : UInt32) :
    (r.image pad).length = sizeofUserExitInfo := by
  simp only [ExitRecord.image, List.length_append, s32Bytes, u64Bytes, leBytes_length,
    CText.length_bytes, sizeofUserExitInfo]
  omega

theorem getUeiData_image (r : ExitRecord) (pad : UInt32) (others : Bytes) :
    getUeiData (some (.ok (r.image pad ++ others))) =
      .ok ⟨r.kind, pad, r.exitCode, r.reason.bytes, r.msg.bytes⟩ := by
  have hlen := r.length_image pad
  have hne : r.image pad ++ others ≠ [] := by
    intro h
    rw [(List.append_eq_nil_iff.mp h).1] at hlen
    exact absurd hlen (by decide)
  have hlong : ¬ (r.image pad ++ others).length < sizeofUserExitInfo := by
    rw [List.length_append, hlen]
    omega
  have hkind : getS32 0 (r.image pad ++ others) = r.kind := by
    simp [ExitRecord.image, List.append_assoc]
  have hpaid : UInt32.ofNat (field 4 4 (r.image pad ++ others)) = pad := by
    have hlt : pad.toNat < 256 ^ 4 := pad.toNat_lt
    rw [ExitRecord.image, List.append_assoc, field_append_right (by simp [s32Bytes]),
      show 4 - (s32Bytes r.kind).length = 0 from by simp [s32Bytes], List.append_assoc,
      field_zero_leBytes_append, Nat.mod_eq_of_lt hlt, UInt32.ofNat_toNat]
  have hcode : (getU64 8 (r.image pad ++ others)).toInt64 = r.exitCode := by
    rw [ExitRecord.image, List.append_assoc, getU64_append _ _ _ (by simp [s32Bytes]),
      List.append_assoc, getU64_append _ _ _ (by simp [s32Bytes]),
      show 8 - (s32Bytes r.kind).length - (leBytes 4 pad.toNat).length = 0 from by simp [s32Bytes],
      List.append_assoc, getU64_u64Bytes_append]
    exact Int64.toInt64_toUInt64 r.exitCode
  -- the arrays behind the first sixteen bytes
  have hfront : (s32Bytes r.kind ++ leBytes 4 pad.toNat ++ u64Bytes r.exitCode.toUInt64).length =
      16 := by simp [s32Bytes, u64Bytes]
  have hsplit : r.image pad ++ others = s32Bytes r.kind ++ leBytes 4 pad.toNat ++
      u64Bytes r.exitCode.toUInt64 ++ (r.reason.bytes ++ (r.msg.bytes ++ others)) := by
    simp only [ExitRecord.image, List.append_assoc]
  have hreason : ((r.image pad ++ others).drop 16).take ueiReasonLen = r.reason.bytes := by
    rw [hsplit, List.drop_left' hfront, List.take_left' r.reason.length_bytes]
  have hmsg : ((r.image pad ++ others).drop (16 + ueiReasonLen)).take ueiMsgLen = r.msg.bytes := by
    rw [← List.drop_drop, hsplit, List.drop_left' hfront, List.drop_left' r.reason.length_bytes,
      List.take_left' r.msg.length_bytes]
  rw [getUeiData, if_neg hne, if_neg hlong, hkind, hpaid, hcode, hreason, hmsg]

theorem stopped_image (r : ExitRecord) (pad : UInt32) (others : Bytes) :
    stopped (some (.ok (r.image pad ++ others))) = true ↔ r.kind ≠ 0 ∨ r.exitCode ≠ 0 := by
  rw [stopped, getUeiData_image]
  exact decide_eq_true_iff

/-- The loop goes on as long as it gets ticks that find nothing. -/
theorem mainLoop_eq_none_iff {events : List MainEvent} :
    mainLoop events = none ↔ ∀ e ∈ events, ∃ uei, e = .tick uei ∧ stopped uei = false := by
  induction events with
  | nil => simp [mainLoop]
  | cons e events ih =>
    rw [List.forall_mem_cons, ← ih]
    cases e with
    | signal => simp [mainLoop]
    | tick uei =>
      rw [mainLoop]
      split_ifs with hstop
      · simp [hstop]
      · simp [hstop]

/-! ### Ticks -/

/-- What a tick finds in the `.data` section: an exit record, four bytes of padding, and
the variables behind it. -/
structure Reading where
  record : ExitRecord
  pad : UInt32
  others : Bytes

/-- How a tick fails to read the section. -/
inductive ReadFailure where
  | noMap
  | getValue (err : String)
  -- a value too short for `binary.Read`
  | short (b : Bytes) (h : b.length < sizeofUserExitInfo)

def Reading.value (x : Reading) : Option (Except String Bytes) :=
  some (.ok (x.record.image x.pad ++ x.others))

def ReadFailure.value : ReadFailure → Option (Except String Bytes)
  | .noMap => none
  | .getValue err => some (.error err)
  | .short b _ => some (.ok b)

/-- What `main` meets while it waits. -/
inductive Happening where
  | signal
  | read (x : Reading)
  | fails (f : ReadFailure)

def Happening.event : Happening → MainEvent
  | .signal => .signal
  | .read x => .tick x.value
  | .fails f => .tick f.value

/-- The tick reads the section and finds no exit recorded. -/
def Happening.FindsNothing : Happening → Prop
  | .read x => x.record.kind = 0 ∧ x.record.exitCode = 0
  | _ => False

/-- A failing read counts as an exit. -/
theorem stopped_failure (f : ReadFailure) : stopped f.value = true := by
  cases f with
  | noMap => rfl
  | getValue err => rfl
  | short b h =>
    rw [ReadFailure.value, stopped, getUeiData]
    split_ifs <;> rfl

theorem event_quiet_iff (e : Happening) :
    (∃ uei, e.event = .tick uei ∧ stopped uei = false) ↔ e.FindsNothing := by
  cases e with
  | signal => simp [Happening.event, Happening.FindsNothing]
  | read x =>
    have hstop := stopped_image x.record x.pad x.others
    simp only [Happening.event, MainEvent.tick.injEq, exists_eq_left', Happening.FindsNothing]
    rw [← Bool.not_eq_true, Reading.value, hstop]
    simp
  | fails f =>
    simp only [Happening.event, MainEvent.tick.injEq, exists_eq_left', Happening.FindsNothing,
      stopped_failure, Bool.true_eq_false]

/-- **An exit is noticed, and reported as recorded.**  For any sequence of signals and
ticks, whether they read the section or fail to, and whatever the padding and the rest
of the section hold: `main` is still waiting exactly when there was no signal and every
tick has read the section and found neither an exit kind nor an exit code.  At every
tick that reads the section, Go reads the kind, the code and both texts that C has
stored. -/
theorem exit_noticed_iff (happened : List Happening) :
    (mainLoop (happened.map Happening.event) = none ↔ ∀ e ∈ happened, e.FindsNothing) ∧
    ∀ x, .read x ∈ happened → ∃ uei, getUeiData x.value = .ok uei ∧ uei.kind = x.record.kind ∧
      uei.exitCode = x.record.exitCode ∧ uei.getReason = some x.record.reason.text ∧
      uei.getMessage = some x.record.msg.text := by
  constructor
  · rw [mainLoop_eq_none_iff, List.forall_mem_map]
    exact forall₂_congr fun e _ => event_quiet_iff e
  · intro x _
    refine ⟨_, getUeiData_image x.record x.pad x.others, rfl, rfl, goString_bytes _ _, ?_⟩
    have hmsg := goString_bytes x.record.msg []
    rwa [List.append_nil] at hmsg

end ScxGoland
