import Rvvm.Library.Runs
import Rvvm.Library.Slices
import Rvvm.Machine.Blk

/-! The block layer with the bytes it moves and its drive head. The image backend answers each call for
itself and may stop short. -/
namespace Rvvm
open BitVec List Slices
open BitVec (ofNat)

/-- What the image backend answers: how much it transfers of a request, and whether it resizes or trims.
The last two callbacks may be missing. -/
structure BlkBackend where
  read : Addr → Nat → Nat
  write : Addr → Nat → Nat
  read_le : ∀ off size, read off size ≤ size
  write_le : ∀ off size, write off size ≤ size
  setSize : Option (Addr → Bool)
  trim : Option (Addr → Addr → Bool)

/-- `rvvm_blk_dev_t` and the bytes of its image. -/
structure BlkDisk where
  read : Bool
  write : Bool
  grow : Bool
  size : Addr
  head : Addr
  image : Nat → Byte

inductive BlkTouch
  | read (off len : Nat)
  | write (off len : Nat)
  | trim (off len : Nat)
  deriving DecidableEq

inductive BlkSeek
  | set | cur | fromEnd | invalid
  deriving DecidableEq

section Calls
variable (cb : BlkBackend) (d : BlkDisk)

def rvvmBlkSetSize (size : Addr) : Bool × BlkDisk :=
  if d.write ∧ (cb.setSize.elim true fun resize => resize size) then (true, { d with size }) else (false, d)

namespace BlkDisk

/-- The bytes that arrive in the caller's buffer. -/
def rvvmBlkRead (size : Nat) (off : Addr) : List Byte × List BlkTouch :=
  if d.read ∧ off < d.size then
    let remain := (d.size - off).toNat
    let size := if size > remain then remain else size
    (load d.image off.toNat (cb.read off size), [.read off.toNat size])
  else ([], [])

/-- The callback `write` of the backend, on the part it transfers. -/
def callWrite (src : List Byte) (off : Addr) : Nat × List BlkTouch × BlkDisk :=
  let ret := cb.write off src.length
  (ret, [.write off.toNat src.length], { d with image := store d.image off.toNat (src.take ret) })

def rvvmBlkGrowSize (size : Addr) : BlkDisk := if size ≤ d.size then d else { d with size }

/-- The tail of `rvvm_blk_write` for requests that do not fit the device. -/
def extend (src : List Byte) (off : Addr) : Nat × List BlkTouch × BlkDisk :=
  if d.grow ∧ off < off + ofNat 64 src.length then
    let (ret, touches, d) := callWrite cb d src off
    (ret, touches, d.rvvmBlkGrowSize (off + ofNat 64 ret))
  else (0, [], d)

def rvvmBlkWrite (src : List Byte) (off : Addr) : Nat × List BlkTouch × BlkDisk :=
  if d.write then
    if off < d.size then
      let remain := (d.size - off).toNat
      if src.length ≤ remain then callWrite cb d src off
      else if !d.grow then callWrite cb d (src.take remain) off
      else extend cb d src off
    else extend cb d src off
  else (0, [], d)

end BlkDisk

def rvvmBlkTrim (off size : Addr) : Bool × List BlkTouch :=
  match cb.trim with
  | none => (false, [])
  | some trim =>
    if d.write ∧ off < d.size ∧ size ≤ d.size - off then (trim off size, [.trim off.toNat size.toNat])
    else (false, [])

def rvvmBlkTellHead : Addr := d.head

/-- The position is a signed number once it is computed; negative ones are refused. -/
def rvvmBlkSeekHead (off : Addr) (whence : BlkSeek) : Bool × BlkDisk :=
  let off := match whence with
    | .set => off
    | .cur => rvvmBlkTellHead d + off
    | .fromEnd => d.size + off
    | .invalid => -1
  if off.msb then (false, d) else (true, { d with head := off })

def rvvmBlkWriteHead (src : List Byte) : Nat × List BlkTouch × BlkDisk :=
  let (ret, touches, d) := d.rvvmBlkWrite cb src (rvvmBlkTellHead d)
  (ret, touches, if ret ≠ 0 then (rvvmBlkSeekHead d (ofNat 64 ret) .cur).2 else d)

def rvvmBlkReadHead (size : Nat) : List Byte × List BlkTouch × BlkDisk :=
  let (bytes, touches) := d.rvvmBlkRead cb size (rvvmBlkTellHead d)
  (bytes, touches,
    if bytes.length ≠ 0 then (rvvmBlkSeekHead d (ofNat 64 bytes.length) .cur).2 else d)

end Calls

/-! One lemma for what each transfer does. -/

namespace BlkDisk

def asked (d : BlkDisk) (off : Addr) (size : Nat) : Nat := if d.grow then size else min size (d.size - off).toNat

def Accepts (d : BlkDisk) (off : Addr) (size : Nat) : Prop :=
  d.write = true ∧ (off < d.size ∨ d.grow = true) ∧ off.toNat + d.asked off size < 2 ^ 64 ∧ 0 < size

end BlkDisk

variable {cb : BlkBackend} {d : BlkDisk} {off : Addr}

theorem remain_toNat (inside : off < d.size) : (d.size - off).toNat = d.size.toNat - off.toNat :=
  BitVec.toNat_sub_of_le (BitVec.le_of_lt inside)

namespace BlkDisk

theorem rvvmBlkRead_readable (size : Nat) (readable : d.read = true) (inside : off < d.size) :
    d.rvvmBlkRead cb size off =
      (load d.image off.toNat (cb.read off (min size (d.size.toNat - off.toNat))),
        [.read off.toNat (min size (d.size.toNat - off.toNat))]) := by
  have request : (if size > (d.size - off).toNat then (d.size - off).toNat else size) =
      min size (d.size.toNat - off.toNat) := by
    rw [remain_toNat inside]
    split <;> omega
  unfold rvvmBlkRead
  rw [if_pos ⟨readable, inside⟩]
  dsimp only
  rw [request]

theorem rvvmBlkRead_refused (size : Nat) (refused : ¬ (d.read = true ∧ off < d.size)) :
    d.rvvmBlkRead cb size off = ([], []) := if_neg refused

/-- What is left of the device after `ret` bytes of `src` were stored at `off`. -/
def stored (d : BlkDisk) (src : List Byte) (off : Addr) (ret : Nat) : BlkDisk :=
  { d with
    image := store d.image off.toNat (src.take ret)
    size := if off + ofNat 64 ret ≤ d.size then d.size else off + ofNat 64 ret }

theorem rvvmBlkGrowSize_eq (size : Addr) :
    d.rvvmBlkGrowSize size = { d with size := if size ≤ d.size then d.size else size } := by
  unfold rvvmBlkGrowSize
  split <;> rfl

variable {src : List Byte}

theorem stored_inside {ret : Nat} (inside : off.toNat + ret ≤ d.size.toNat) :
    d.stored src off ret = { d with image := store d.image off.toNat (src.take ret) } := by
  have fits : off + ofNat 64 ret ≤ d.size := by
    rw [le_def, toNat_add, toNat_ofNat]
    omega
  rw [stored, if_pos fits]

theorem lt_add_iff {len : Nat} (small : len < 2 ^ 64) :
    off < off + ofNat 64 len ↔ 0 < len ∧ off.toNat + len < 2 ^ 64 := by
  rw [lt_def, toNat_add, toNat_ofNat]
  omega

theorem extend_accepts (small : src.length < 2 ^ 64) (grows : d.grow = true)
    (positive : 0 < src.length) (ends : off.toNat + src.length < 2 ^ 64) :
    (d.extend cb src off).1 = cb.write off src.length ∧
      (d.extend cb src off).2.2 = d.stored src off (cb.write off src.length) := by
  unfold extend callWrite
  rw [if_pos ⟨grows, (lt_add_iff small).mpr ⟨positive, ends⟩⟩]
  exact ⟨rfl, rvvmBlkGrowSize_eq _⟩

theorem extend_refuses (small : src.length < 2 ^ 64)
    (refused : ¬ (d.grow = true ∧ 0 < src.length ∧ off.toNat + src.length < 2 ^ 64)) :
    d.extend cb src off = (0, [], d) := by
  exact if_neg fun grows => refused ⟨grows.1, (lt_add_iff small).mp grows.2⟩

theorem rvvmBlkWrite_accepts (cb : BlkBackend) (small : src.length < 2 ^ 64)
    (accepts : d.Accepts off src.length) :
    (d.rvvmBlkWrite cb src off).1 = cb.write off (d.asked off src.length) ∧
      (d.rvvmBlkWrite cb src off).2.2 = d.stored src off (cb.write off (d.asked off src.length)) := by
  obtain ⟨writable, reaches, ends, positive⟩ := accepts
  unfold rvvmBlkWrite
  rw [if_pos writable]
  by_cases inside : off < d.size
  · have remain := remain_toNat inside
    have below : off.toNat < d.size.toNat := inside
    rw [if_pos inside]
    by_cases fits : src.length ≤ (d.size - off).toNat
    · have request : d.asked off src.length = src.length := by
        unfold asked
        split <;> omega
      have short := cb.write_le off src.length
      rw [if_pos fits, request, stored_inside (by omega)]
      exact ⟨rfl, rfl⟩
    · rw [if_neg fits]
      by_cases grows : d.grow = true
      · have request : d.asked off src.length = src.length := if_pos grows
        rw [request] at ends ⊢
        rw [if_neg (by rw [grows]; decide)]
        exact extend_accepts small grows positive ends
      · have request : d.asked off src.length = (d.size - off).toNat := by
          unfold asked
          rw [if_neg grows]
          omega
        have short := cb.write_le off (d.size - off).toNat
        have length : (src.take (d.size - off).toNat).length = (d.size - off).toNat := by
          rw [length_take]
          omega
        rw [if_pos (by rw [Bool.eq_false_of_not_eq_true grows]; decide), request, stored_inside (by omega)]
        unfold callWrite
        dsimp only
        rw [length, take_take, Nat.min_eq_left short]
        exact ⟨rfl, rfl⟩
  · have grows := reaches.resolve_left inside
    have request : d.asked off src.length = src.length := if_pos grows
    rw [request] at ends ⊢
    rw [if_neg inside]
    exact extend_accepts small grows positive ends

theorem rvvmBlkWrite_refuses (cb : BlkBackend) (small : src.length < 2 ^ 64)
    (refuses : ¬ d.Accepts off src.length) :
    (d.rvvmBlkWrite cb src off).1 = 0 ∧ (d.rvvmBlkWrite cb src off).2.2 = d := by
  have none : cb.write off 0 = 0 := Nat.le_zero.mp (cb.write_le off 0)
  unfold rvvmBlkWrite
  by_cases writable : d.write = true
  · rw [if_pos writable]
    by_cases inside : off < d.size
    · have remain := remain_toNat inside
      rw [if_pos inside]
      by_cases fits : src.length ≤ (d.size - off).toNat
      · have empty : src = [] := by
          by_contra some
          have request : d.asked off src.length = src.length := by
            unfold asked
            split <;> omega
          refine refuses ⟨writable, .inl inside, ?_, length_pos_iff.mpr some⟩
          omega
        rw [empty]
        unfold callWrite
        dsimp only
        rw [length_nil, none, take_nil, store_nil]
        exact ⟨rfl, rfl⟩
      · rw [if_neg fits]
        by_cases grows : d.grow = true
        · have request : d.asked off src.length = src.length := if_pos grows
          rw [if_neg (by rw [grows]; decide), extend_refuses small]
          · exact ⟨rfl, rfl⟩
          · rintro ⟨-, positive, ends⟩
            exact refuses ⟨writable, .inl inside, by rwa [request], positive⟩
        · exfalso
          have request : d.asked off src.length = min src.length (d.size - off).toNat := if_neg grows
          refine refuses ⟨writable, .inl inside, ?_, ?_⟩ <;> omega
    · rw [if_neg inside, extend_refuses small]
      · exact ⟨rfl, rfl⟩
      · rintro ⟨grows, positive, ends⟩
        have request : d.asked off src.length = src.length := if_pos grows
        exact refuses ⟨writable, .inr grows, by rwa [request], positive⟩
  · rw [if_neg writable]
    exact ⟨rfl, rfl⟩

end BlkDisk

/-! Without its bytes and its head the device is the one that only counts what is moved. -/

namespace BlkDisk

def facing (cb : BlkBackend) (d : BlkDisk) : RvvmBlk :=
  ⟨d.read, d.write, d.grow, d.size, cb.read, cb.write, cb.read_le, cb.write_le⟩

theorem rvvmBlkRead_counts (size : Nat) :
    (d.rvvmBlkRead cb size off).1.length = Rvvm.rvvmBlkRead (d.facing cb) size off := by
  unfold rvvmBlkRead Rvvm.rvvmBlkRead facing
  split
  · exact length_load _ _ _
  · rfl

theorem extend_counts (cb : BlkBackend) (d : BlkDisk) (off : Addr) (src : List Byte) :
    ((d.extend cb src off).1, (d.extend cb src off).2.2.facing cb) =
      rvvmBlkExtend (d.facing cb) src.length off := by
  unfold extend rvvmBlkExtend callWrite rvvmBlkGrowSize Rvvm.rvvmBlkGrowSize facing
  split
  · dsimp only
    split <;> rfl
  · rfl

theorem rvvmBlkWrite_counts (src : List Byte) :
    ((d.rvvmBlkWrite cb src off).1, (d.rvvmBlkWrite cb src off).2.2.facing cb) =
      Rvvm.rvvmBlkWrite (d.facing cb) src.length off := by
  have extended := extend_counts cb d off src
  unfold rvvmBlkWrite Rvvm.rvvmBlkWrite
  change _ = if d.write = true then if off < d.size then if src.length ≤ (d.size - off).toNat then _ else
    if (!d.grow) = true then _ else _ else _ else _
  dsimp only
  split
  · split
    · split
      · rfl
      · split
        case isTrue long _ =>
          have length : (src.take (d.size - off).toNat).length = (d.size - off).toNat := by
            rw [length_take]
            omega
          unfold callWrite
          rw [length]
          rfl
        case isFalse => exact extended
    · exact extended
  · rfl

end BlkDisk

/-! Calls in a row, and what is expected of each. -/

/-- A buffer of the caller; its length is a `size_t`. -/
abbrev BlkBuf := { src : List Byte // src.length < 2 ^ 64 }

inductive BlkOp
  | read (size : Nat) (off : Addr)
  | write (src : BlkBuf) (off : Addr)
  | trim (off size : Addr)
  | setSize (size : Addr)
  | seekHead (off : Addr) (whence : BlkSeek)
  | readHead (size : Nat)
  | writeHead (src : BlkBuf)

/-- The count returned, for transfers; what the backend was asked for; and the device after the call. -/
structure BlkReply where
  count : Nat
  touches : List BlkTouch
  disk : BlkDisk

namespace BlkOp

def run (cb : BlkBackend) (d : BlkDisk) : BlkOp → BlkReply
  | read size off => ⟨(d.rvvmBlkRead cb size off).1.length, (d.rvvmBlkRead cb size off).2, d⟩
  | write src off =>
    ⟨(d.rvvmBlkWrite cb src off).1, (d.rvvmBlkWrite cb src off).2.1, (d.rvvmBlkWrite cb src off).2.2⟩
  | trim off size => ⟨0, (rvvmBlkTrim cb d off size).2, d⟩
  | setSize size => ⟨0, [], (rvvmBlkSetSize cb d size).2⟩
  | seekHead off whence => ⟨0, [], (rvvmBlkSeekHead d off whence).2⟩
  | readHead size =>
    ⟨(rvvmBlkReadHead cb d size).1.length, (rvvmBlkReadHead cb d size).2.1, (rvvmBlkReadHead cb d size).2.2⟩
  | writeHead src =>
    ⟨(rvvmBlkWriteHead cb d src).1, (rvvmBlkWriteHead cb d src).2.1, (rvvmBlkWriteHead cb d src).2.2⟩

/-- Where a write stores. -/
def storesAt (d : BlkDisk) : BlkOp → Option Addr
  | write _ off => some off
  | writeHead _ => some d.head
  | _ => none

def usesHead : BlkOp → Bool
  | readHead _ | writeHead _ => true
  | _ => false

end BlkOp

/-- Bytes past the end are out of reach, except to a write that may grow the device. -/
def BlkTouch.Inside (d : BlkDisk) : BlkTouch → Prop
  | .read off len | .trim off len => off + len ≤ d.size.toNat
  | .write off len => d.grow = false → off + len ≤ d.size.toNat

/-- The call treats the device as an array of bytes that only grows as far as bytes are stored. -/
structure BlkLawful (cb : BlkBackend) (d : BlkDisk) (op : BlkOp) : Prop where
  inside : ∀ touch ∈ (op.run cb d).touches, touch.Inside d
  grown : ∀ off, op.storesAt d = some off → 0 < (op.run cb d).count →
    off.toNat + (op.run cb d).count ≤ (op.run cb d).disk.size.toNat ∧ d.size ≤ (op.run cb d).disk.size
  kept : ∀ off, op.storesAt d = some off → (op.run cb d).count = 0 → (op.run cb d).disk.size = d.size
  head : op.usesHead = true → (op.run cb d).disk.head = d.head + ofNat 64 (op.run cb d).count

/-- Past the end of the device the backend stores something. -/
def BlkDisk.GrowFits (cb : BlkBackend) (d : BlkDisk) (size : Nat) (off : Addr) : Prop :=
  d.Accepts off size → d.size < off → 0 < cb.write off size

/-- The head is not moved past the positions a signed number holds. -/
def BlkDisk.HeadFits (d : BlkDisk) (moved : Nat) : Prop := 0 < moved → d.head.toNat + moved < 2 ^ 63

def BlkOp.Fits (cb : BlkBackend) (d : BlkDisk) : BlkOp → Prop
  | write src off => d.GrowFits cb src.1.length off
  | writeHead src =>
    d.GrowFits cb src.1.length d.head ∧
      (d.Accepts d.head src.1.length → d.HeadFits (cb.write d.head (d.asked d.head src.1.length)))
  | readHead size =>
    d.read = true → d.head < d.size → d.HeadFits (cb.read d.head (min size (d.size.toNat - d.head.toNat)))
  | _ => True

theorem BlkDisk.rvvmBlkRead_inside (size : Nat) : ∀ touch ∈ (d.rvvmBlkRead cb size off).2, touch.Inside d := by
  intro touch member
  by_cases ready : d.read = true ∧ off < d.size
  · have below : off.toNat < d.size.toNat := ready.2
    rw [rvvmBlkRead_readable size ready.1 ready.2, mem_singleton] at member
    subst member
    change off.toNat + min size (d.size.toNat - off.toNat) ≤ d.size.toNat
    omega
  · rw [rvvmBlkRead_refused size ready] at member
    cases member

theorem BlkDisk.rvvmBlkWrite_inside (src : List Byte) :
    ∀ touch ∈ (d.rvvmBlkWrite cb src off).2.1, touch.Inside d := by
  have one {n : Nat} {touch : BlkTouch} (member : touch ∈ [BlkTouch.write off.toNat n])
      (fits : d.grow = false → off.toNat + n ≤ d.size.toNat) : touch.Inside d := by
    rw [mem_singleton.mp member]
    exact fits
  have extends_ : ∀ touch ∈ (d.extend cb src off).2.1, touch.Inside d := by
    intro touch member
    unfold extend callWrite at member
    split at member
    case isTrue grows => exact one member fun fixed => absurd grows.1 (by rw [fixed]; decide)
    case isFalse => cases member
  intro touch member
  unfold rvvmBlkWrite at member
  dsimp only at member
  split at member
  · split at member
    case isTrue inside =>
      have remain := remain_toNat inside
      have below : off.toNat < d.size.toNat := inside
      split at member
      · exact one member fun _ => by omega
      · split at member
        · exact one member fun _ => by rw [length_take]; omega
        · exact extends_ touch member
    case isFalse => exact extends_ touch member
  · cases member

theorem rvvmBlkTrim_inside (size : Addr) : ∀ touch ∈ (rvvmBlkTrim cb d off size).2, touch.Inside d := by
  intro touch member
  unfold rvvmBlkTrim at member
  split at member
  · cases member
  · split at member
    case isTrue ready =>
      have remain := remain_toNat ready.2.1
      have below : off.toNat < d.size.toNat := ready.2.1
      have fits : size.toNat ≤ (d.size - off).toNat := ready.2.2
      rw [mem_singleton.mp member]
      change off.toNat + size.toNat ≤ d.size.toNat
      omega
    case isFalse => cases member

theorem rvvmBlkSeekHead_follows {moved : Nat} (ends : d.head.toNat + moved < 2 ^ 64) (positive : 0 < moved) :
    (rvvmBlkSeekHead d (ofNat 64 moved) .cur).2.head = d.head + ofNat 64 moved ↔
      d.head.toNat + moved < 2 ^ 63 := by
  have position : (d.head + ofNat 64 moved).toNat = d.head.toNat + moved := by
    rw [toNat_add, toNat_ofNat]
    omega
  have sign : (d.head + ofNat 64 moved).msb = decide (2 ^ 63 ≤ d.head.toNat + moved) := by
    rw [msb_eq_decide, position]
  have moves : d.head ≠ d.head + ofNat 64 moved := by
    intro same
    have values := congrArg BitVec.toNat same
    omega
  unfold rvvmBlkSeekHead rvvmBlkTellHead
  dsimp only
  rw [sign]
  by_cases far : 2 ^ 63 ≤ d.head.toNat + moved
  · rw [decide_eq_true far, if_pos rfl]
    exact ⟨fun same => absurd same moves, fun near => absurd far (Nat.not_le.mpr near)⟩
  · rw [decide_eq_false far, if_neg nofun]
    exact ⟨fun _ => Nat.lt_of_not_le far, fun _ => rfl⟩

theorem rvvmBlkSeekHead_size (whence : BlkSeek) : (rvvmBlkSeekHead d off whence).2.size = d.size := by
  unfold rvvmBlkSeekHead
  dsimp only
  split <;> split <;> rfl

namespace BlkDisk

theorem stored_size (src : List Byte) {ret : Nat} (ends : off.toNat + ret < 2 ^ 64) :
    (d.stored src off ret).size.toNat = max d.size.toNat (off.toNat + ret) := by
  have fin : (off + ofNat 64 ret).toNat = off.toNat + ret := by
    rw [toNat_add, toNat_ofNat]
    omega
  unfold stored
  dsimp only
  split
  case isTrue fits =>
    rw [le_def] at fits
    omega
  case isFalse past =>
    rw [le_def] at past
    omega

theorem write_ends (cb : BlkBackend) (src : BlkBuf) (accepts : d.Accepts off src.1.length) :
    off.toNat + cb.write off (d.asked off src.1.length) < 2 ^ 64 := by
  have short := cb.write_le off (d.asked off src.1.length)
  have ends := accepts.2.2.1
  omega

theorem write_grown (src : BlkBuf) (positive : 0 < (d.rvvmBlkWrite cb src off).1) :
    off.toNat + (d.rvvmBlkWrite cb src off).1 ≤ (d.rvvmBlkWrite cb src off).2.2.size.toNat ∧
      d.size ≤ (d.rvvmBlkWrite cb src off).2.2.size := by
  by_cases accepts : d.Accepts off src.1.length
  · obtain ⟨count, disk⟩ := rvvmBlkWrite_accepts cb src.2 accepts
    rw [le_def, disk, stored_size _ (write_ends cb src accepts)]
    omega
  · have count := (rvvmBlkWrite_refuses cb src.2 accepts).1
    omega

theorem write_kept_iff (src : BlkBuf) :
    ((d.rvvmBlkWrite cb src off).1 = 0 → (d.rvvmBlkWrite cb src off).2.2.size = d.size) ↔
      d.GrowFits cb src.1.length off := by
  by_cases accepts : d.Accepts off src.1.length
  · obtain ⟨count, disk⟩ := rvvmBlkWrite_accepts cb src.2 accepts
    have size := stored_size (d := d) src.1 (write_ends cb src accepts)
    have inside : (off < d.size ∨ d.grow = true) := accepts.2.1
    have request (past : d.size < off) : d.asked off src.1.length = src.1.length := by
      refine if_pos (inside.resolve_left fun below => ?_)
      exact absurd past (BitVec.not_lt.mpr (BitVec.le_of_lt below))
    rw [count, disk]
    constructor
    · intro kept _ past
      rw [← request past]
      refine Nat.pos_of_ne_zero fun nothing => ?_
      have same := congrArg BitVec.toNat (kept nothing)
      have after : d.size.toNat < off.toNat := past
      omega
    · intro fits nothing
      apply eq_of_toNat_eq
      by_contra grown
      have past : d.size < off := by
        rw [lt_def]
        omega
      have stores := fits accepts past
      rw [← request past] at stores
      omega
  · obtain ⟨-, disk⟩ := rvvmBlkWrite_refuses cb src.2 accepts
    rw [disk]
    exact ⟨fun _ accepted => absurd accepted accepts, fun _ _ => rfl⟩

theorem write_head_iff (src : BlkBuf) :
    (rvvmBlkWriteHead cb d src).2.2.head = d.head + ofNat 64 (rvvmBlkWriteHead cb d src).1 ↔
      (d.Accepts d.head src.1.length → d.HeadFits (cb.write d.head (d.asked d.head src.1.length))) := by
  unfold rvvmBlkWriteHead rvvmBlkTellHead
  dsimp only
  by_cases accepts : d.Accepts d.head src.1.length
  · obtain ⟨count, disk⟩ := rvvmBlkWrite_accepts cb src.2 accepts
    have ends := write_ends cb src accepts
    rw [count, disk]
    generalize cb.write d.head (d.asked d.head src.1.length) = moved at ends ⊢
    by_cases nothing : moved = 0
    · rw [if_neg (not_not.mpr nothing), nothing]
      exact ⟨fun _ _ positive => absurd positive (Nat.lt_irrefl 0), fun _ => (BitVec.add_zero d.head).symm⟩
    · have positive := Nat.pos_of_ne_zero nothing
      have follows : _ ↔ d.head.toNat + moved < 2 ^ 63 :=
        rvvmBlkSeekHead_follows (d := d.stored src.1 d.head moved) ends positive
      rw [if_pos nothing]
      exact ⟨fun same _ _ => follows.mp same, fun fits => follows.mpr (fits accepts positive)⟩
  · obtain ⟨count, disk⟩ := rvvmBlkWrite_refuses cb src.2 accepts
    rw [count, disk]
    exact ⟨fun _ accepted => absurd accepted accepts, fun _ => (BitVec.add_zero d.head).symm⟩

theorem read_head_iff (size : Nat) :
    (rvvmBlkReadHead cb d size).2.2.head = d.head + ofNat 64 (rvvmBlkReadHead cb d size).1.length ↔
      (d.read = true → d.head < d.size →
        d.HeadFits (cb.read d.head (min size (d.size.toNat - d.head.toNat)))) := by
  unfold rvvmBlkReadHead rvvmBlkTellHead
  by_cases ready : d.read = true ∧ d.head < d.size
  · have short := cb.read_le d.head (min size (d.size.toNat - d.head.toNat))
    rw [rvvmBlkRead_readable size ready.1 ready.2]
    dsimp only
    rw [length_load]
    generalize cb.read d.head (min size (d.size.toNat - d.head.toNat)) = moved at short ⊢
    by_cases nothing : moved = 0
    · rw [if_neg (not_not.mpr nothing), nothing]
      exact ⟨fun _ _ _ positive => absurd positive (Nat.lt_irrefl 0), fun _ => (BitVec.add_zero d.head).symm⟩
    · have positive := Nat.pos_of_ne_zero nothing
      rw [if_pos nothing, rvvmBlkSeekHead_follows (by omega) positive]
      exact ⟨fun fits _ _ _ => fits, fun fits => fits ready.1 ready.2 positive⟩
  · rw [rvvmBlkRead_refused size ready]
    exact ⟨fun _ readable inside => absurd ⟨readable, inside⟩ ready, fun _ => (BitVec.add_zero d.head).symm⟩

end BlkDisk

theorem BlkLawful.elsewhere {op : BlkOp} (apart : op.storesAt d = none) (still : op.usesHead = false)
    (inside : ∀ touch ∈ (op.run cb d).touches, touch.Inside d) : BlkLawful cb d op where
  inside := inside
  grown := fun off stores => by rw [apart] at stores; cases stores
  kept := fun off stores => by rw [apart] at stores; cases stores
  head := fun uses => by rw [still] at uses; cases uses

/-- One call is lawful exactly when it neither stores nothing past the end nor overruns the head. -/
theorem BlkOp.lawful_iff (op : BlkOp) : BlkLawful cb d op ↔ op.Fits cb d := by
  have quiet : ∀ touch ∈ ([] : List BlkTouch), touch.Inside d := nofun
  cases op with
  | read size off => exact ⟨fun _ => trivial, fun _ => .elsewhere rfl rfl (BlkDisk.rvvmBlkRead_inside size)⟩
  | trim off size => exact ⟨fun _ => trivial, fun _ => .elsewhere rfl rfl (rvvmBlkTrim_inside size)⟩
  | setSize size | seekHead off whence => exact ⟨fun _ => trivial, fun _ => .elsewhere rfl rfl quiet⟩
  | write src off =>
    refine ⟨fun lawful => (BlkDisk.write_kept_iff src).mp (lawful.kept off rfl), fun fits => ?_⟩
    refine ⟨BlkDisk.rvvmBlkWrite_inside src.1, ?_, ?_, nofun⟩
    · rintro _ ⟨⟩ positive
      exact BlkDisk.write_grown src positive
    · rintro _ ⟨⟩
      exact (BlkDisk.write_kept_iff src).mpr fits
  | readHead size =>
    refine ⟨fun lawful => (BlkDisk.read_head_iff size).mp (lawful.head rfl), fun fits => ?_⟩
    refine ⟨BlkDisk.rvvmBlkRead_inside size, fun _ stores => absurd stores (by rintro ⟨⟩),
      fun _ stores => absurd stores (by rintro ⟨⟩), fun _ => (BlkDisk.read_head_iff size).mpr fits⟩
  | writeHead src =>
    have size : ((writeHead src).run cb d).disk.size = (d.rvvmBlkWrite cb src d.head).2.2.size := by
      change (rvvmBlkWriteHead cb d src).2.2.size = _
      unfold rvvmBlkWriteHead rvvmBlkTellHead
      dsimp only
      split
      · exact rvvmBlkSeekHead_size _
      · rfl
    constructor
    · intro lawful
      refine ⟨(BlkDisk.write_kept_iff src).mp fun nothing => ?_,
        (BlkDisk.write_head_iff src).mp (lawful.head rfl)⟩
      rw [← size]
      exact lawful.kept d.head rfl nothing
    · rintro ⟨fits, moves⟩
      refine ⟨BlkDisk.rvvmBlkWrite_inside src.1, ?_, ?_, fun _ => (BlkDisk.write_head_iff src).mpr moves⟩
      · rintro _ ⟨⟩ positive
        rw [size]
        exact BlkDisk.write_grown src positive
      · rintro _ ⟨⟩ nothing
        rw [size]
        exact (BlkDisk.write_kept_iff src).mpr fits nothing

def blkStep (d : BlkDisk) (call : BlkBackend × BlkOp) : BlkDisk := (call.2.run call.1 d).disk

/-- The calls of a run are all lawful exactly when each fits the device it is made on. -/
theorem blk_lawful_iff (d : BlkDisk) (calls : List (BlkBackend × BlkOp)) :
    Runs.AllSteps blkStep (fun d call => BlkLawful call.1 d call.2) d calls ↔
      Runs.AllSteps blkStep (fun d call => call.2.Fits call.1 d) d calls := by
  induction calls generalizing d with
  | nil => exact Iff.rfl
  | cons call calls ih => exact and_congr (BlkOp.lawful_iff call.2) (ih _)

def wholeBackend : BlkBackend where
  read := fun _ size => size
  write := fun _ size => size
  read_le := fun _ size => le_refl size
  write_le := fun _ size => le_refl size
  setSize := none
  trim := none

def failingBackend : BlkBackend where
  read := fun _ _ => 0
  write := fun _ _ => 0
  read_le := fun _ size => Nat.zero_le size
  write_le := fun _ size => Nat.zero_le size
  setSize := none
  trim := none

def sectorDisk : BlkDisk := ⟨true, true, true, 0x200, 0, fun _ => 0⟩

def hugeDisk : BlkDisk := ⟨true, true, false, 0x8000000000000001, 0x7FFFFFFFFFFFFFFF, fun _ => 0⟩

/-- A write that stores nothing past the end makes the device larger, and a read that moves the head to
`2 ^ 63` leaves it where it was. -/
theorem blk_laws_fail :
    ((BlkOp.write ⟨[0], by decide⟩ 0x1000).run failingBackend sectorDisk).count = 0 ∧
      ((BlkOp.write ⟨[0], by decide⟩ 0x1000).run failingBackend sectorDisk).disk.size = 0x1000 ∧
      ((BlkOp.readHead 1).run wholeBackend hugeDisk).count = 1 ∧
      ((BlkOp.readHead 1).run wholeBackend hugeDisk).disk.head = hugeDisk.head ∧
      ¬ BlkLawful failingBackend sectorDisk (.write ⟨[0], by decide⟩ 0x1000) ∧
      ¬ BlkLawful wholeBackend hugeDisk (.readHead 1) := by
  refine ⟨by decide, by decide, by decide, by decide, fun lawful => ?_, fun lawful => ?_⟩
  · exact absurd (lawful.kept 0x1000 rfl (by decide)) (by decide)
  · exact absurd (lawful.head rfl) (by decide)

end Rvvm
