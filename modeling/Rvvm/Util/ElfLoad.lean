import Rvvm.Machine.Host

/-! The ELF loader in object-copy mode: the program headers are read twice, once for the lowest address and
once to copy the segments into a buffer. -/
namespace Rvvm
open List Option
open BitVec (lt_def ofNat toNat_add toNat_ofNat toNat_sub)

/-! Files. -/

/-- `rvfile_t`: offsets in it are signed 64-bit numbers. -/
structure RvFile where
  bytes : List Byte
  pos : Addr
  short : bytes.length < 2 ^ 63

def rvfilePosition : Addr := -1

/-- `rvread_unlocked` hands its count back as an `int32_t`. -/
def rvreadCount (n : Nat) : Addr := (ofNat 32 n).signExtend 64

/-- `rvread`: the bytes that reach the destination, and the count returned. -/
def rvread (f : RvFile) (size off : Addr) : (List Byte × Addr) × RvFile :=
  let pos := if off = rvfilePosition then f.pos else off
  let got := (f.bytes.drop pos.toNat).take size.toNat
  let ret := rvreadCount got.length
  -- a negative position is refused by `rvseek`
  ((got, ret), if off = rvfilePosition ∧ ret ≠ 0 ∧ (pos + ret).msb = false then { f with pos := pos + ret } else f)

/-- The scratch buffer `tmp`, read at an offset. -/
def scratch (bytes : List Byte) : HostMem := fun p => bytes.getD p.toNat 0

structure ElfHeader where
  class64 : Bool
  entry : Addr
  phoff : Addr
  phnum : BitVec 16

namespace ElfHeader

def phnsz (h : ElfHeader) : Addr := if h.class64 then 56 else 32

def phentOff (h : ElfHeader) (i : Nat) : Addr := h.phoff + h.phnsz * ofNat 64 i

end ElfHeader

/-- A field of eight bytes in one class and of four in the other. -/
def elfWord (class64 : Bool) (tmp : HostMem) (off64 off32 : Addr) : Addr :=
  if class64 then readUint64Le tmp off64 else (readUint32Le tmp off32).setWidth 64

def elfReadHeader (f : RvFile) : Option ElfHeader × RvFile :=
  let ((bytes, ret), f) := rvread f 64 0
  let tmp := scratch bytes
  if ret = 64 ∧ readUint32Le tmp 0 = 0x464c457F ∧ (tmp 4 = 1 ∨ tmp 4 = 2) ∧ tmp 5 = 1 then
    let class64 := tmp 4 = 2
    (some
      { class64
        entry := elfWord class64 tmp 24 24
        phoff := elfWord class64 tmp 32 28
        phnum := readUint16Le tmp (if class64 then 56 else 44) }, f)
  else (none, f)

structure ElfPhdr where
  type : BitVec 32
  offset : Addr
  vaddr : Addr
  fsize : Addr
  memsz : Addr
  deriving DecidableEq

def elfPtLoad : BitVec 32 := 1
def elfPtPhdr : BitVec 32 := 6

/-- Segments of these types are copied. -/
def ElfPhdr.copied (ph : ElfPhdr) : Bool := ph.type == elfPtLoad || ph.type == elfPtPhdr

def elfReadPhdr (h : ElfHeader) (f : RvFile) (i : Nat) : Option ElfPhdr × RvFile :=
  let ((bytes, ret), f) := rvread f h.phnsz (h.phentOff i)
  let tmp := scratch bytes
  if ret = h.phnsz then
    (some
      { type := readUint32Le tmp 0
        offset := elfWord h.class64 tmp 8 4
        vaddr := elfWord h.class64 tmp 16 8
        fsize := elfWord h.class64 tmp 32 16
        memsz := elfWord h.class64 tmp 40 20 }, f)
  else (none, f)

/-- `elf_loaddr` and `elf->phdr` so far. -/
structure ElfSpan where
  loaddr : Addr
  phdr : Addr

def ElfSpan.visit (span : ElfSpan) (ph : ElfPhdr) : ElfSpan where
  loaddr := if ph.copied ∧ ph.vaddr < span.loaddr then ph.vaddr else span.loaddr
  phdr := if ph.type = elfPtPhdr then ph.vaddr else span.phdr

def elfScan (h : ElfHeader) : List Nat → ElfSpan → RvFile → Bool × ElfSpan × RvFile
  | [], span, f => (true, span, f)
  | i :: rest, span, f =>
    match elfReadPhdr h f i with
    | (none, f) => (false, span, f)
    | (some ph, f) => elfScan h rest (span.visit ph) f

/-- A program header and the bytes of the file that are copied for it. -/
structure ElfSegment where
  ph : ElfPhdr
  bytes : List Byte
  deriving DecidableEq

/-- What the second pass reads. It stops at the first header or segment that cannot be read, or that does not
fit; what was read of the last segment is copied all the same. -/
def elfSegments (h : ElfHeader) (loaddr bufSize : Addr) : List Nat → RvFile → Bool × List ElfSegment
  | [], _ => (true, [])
  | i :: rest, f =>
    match elfReadPhdr h f i with
    | (none, _) => (false, [])
    | (some ph, f) =>
      if ph.copied then
        if ph.vaddr + ph.memsz ≤ loaddr + bufSize then
          let ((bytes, ret), f) := rvread f ph.fsize ph.offset
          if ret = ph.fsize then
            let (ok, segments) := elfSegments h loaddr bufSize rest f
            (ok, ⟨ph, bytes⟩ :: segments)
          else (false, [⟨ph, bytes⟩])
        else (false, [])
      else elfSegments h loaddr bufSize rest f

/-- What the loader finds in a file: the segments it copies, their lowest address, and whether it succeeds;
with the entry point and the address of the header table, both from that lowest address on. -/
structure ElfImage where
  ok : Bool
  segments : List ElfSegment
  loaddr : Addr
  entry : Addr
  phdr : Addr
  phnum : BitVec 16

def ElfImage.rejected : ElfImage := ⟨false, [], 0, 0, 0, 0⟩

def elfImage (f : RvFile) (bufSize : Addr) : ElfImage :=
  match elfReadHeader f with
  | (none, _) => .rejected
  | (some h, f) =>
    match elfScan h (range h.phnum.toNat) ⟨-1, 0⟩ f with
    | (false, span, _) => { ElfImage.rejected with entry := h.entry, phdr := span.phdr, phnum := h.phnum }
    | (true, span, f) =>
      -- no segments leave the initial value
      let loaddr := if span.loaddr = -1 then 0 else span.loaddr
      let (ok, segments) := elfSegments h loaddr bufSize (range h.phnum.toNat) f
      { ok, segments, loaddr
        entry := if h.entry ≠ 0 then h.entry - loaddr else 0
        phdr := if span.phdr ≠ 0 then span.phdr - loaddr else 0
        phnum := h.phnum }

/-- Where a segment goes, from the start of the buffer. -/
def ElfSegment.offset (loaddr : Addr) (seg : ElfSegment) : Addr := seg.ph.vaddr - loaddr

def elfCopy (base loaddr : Addr) (mem : HostMem) (seg : ElfSegment) : HostMem :=
  mem.write (base + seg.offset loaddr) (scratch seg.bytes) (ofNat 64 seg.bytes.length)

/-- `elf_load_file` with a buffer: what it returns and the memory it leaves. -/
def elfLoadFile (f : RvFile) (base bufSize : Addr) (mem : HostMem) : Bool × HostMem :=
  let image := elfImage f bufSize
  (image.ok, image.segments.foldl (elfCopy base image.loaddr) mem)

/-! Where the copies go, and what they leave. -/

namespace ElfSegment

def byteAt (loaddr : Addr) (x : Nat) (seg : ElfSegment) : Option Byte :=
  if (seg.offset loaddr).toNat ≤ x then seg.bytes[x - (seg.offset loaddr).toNat]? else none

def Covers (loaddr : Addr) (x : Nat) (seg : ElfSegment) : Prop :=
  (seg.offset loaddr).toNat ≤ x ∧ x < (seg.offset loaddr).toNat + max seg.ph.fsize.toNat seg.ph.memsz.toNat

end ElfSegment

def leftAt (loaddr : Addr) (x : Nat) (segments : List ElfSegment) (byte : Byte) : Byte :=
  segments.foldl (fun byte seg => (seg.byteAt loaddr x).getD byte) byte

/-- All bytes are written to the buffer. After success every place of a loadable segment that no later one
occupies lies in the buffer; it holds the byte of the file, or zero where the file has none for it. -/
structure ElfInWindow (f : RvFile) (base bufSize : Addr) (mem : HostMem) : Prop where
  inside : ∀ seg ∈ (elfImage f bufSize).segments, ∀ i < seg.bytes.length,
    seg.offset (elfImage f bufSize).loaddr + ofNat 64 i < bufSize
  content : (elfLoadFile f base bufSize mem).1 = true → ∀ earlier seg later,
    (elfImage f bufSize).segments = earlier ++ seg :: later → seg.ph.type = elfPtLoad →
    ∀ k < seg.ph.memsz.toNat,
      let x := (seg.offset (elfImage f bufSize).loaddr).toNat + k
      (∀ other ∈ later, ¬ other.Covers (elfImage f bufSize).loaddr x) →
        x < bufSize.toNat ∧
          if k < seg.ph.fsize.toNat then
            f.bytes[seg.ph.offset.toNat + k]? = some
              ((elfLoadFile f base bufSize mem).2 (base + ofNat 64 x))
          else (elfLoadFile f base bufSize mem).2 (base + ofNat 64 x) = 0

/-- Segments end in the buffer with the bytes the file has for them. A loadable segment that can be read ends
there with its memory too, has its bytes at a plain offset of the file, and past them finds zeros. -/
structure ElfFits (f : RvFile) (base bufSize : Addr) (mem : HostMem) : Prop where
  copies : ∀ seg ∈ (elfImage f bufSize).segments, seg.bytes ≠ [] →
    (seg.offset (elfImage f bufSize).loaddr).toNat + seg.bytes.length ≤ bufSize.toNat
  loads : (elfImage f bufSize).ok = true → ∀ earlier seg later,
    (elfImage f bufSize).segments = earlier ++ seg :: later → seg.ph.type = elfPtLoad →
    ∀ k < seg.ph.memsz.toNat,
      let x := (seg.offset (elfImage f bufSize).loaddr).toNat + k
      (∀ other ∈ later, ¬ other.Covers (elfImage f bufSize).loaddr x) →
        x < bufSize.toNat ∧
          if k < seg.ph.fsize.toNat then k < seg.bytes.length ∧ seg.ph.offset ≠ rvfilePosition
          else leftAt (elfImage f bufSize).loaddr x earlier (mem (base + ofNat 64 x)) = 0

theorem rvread_bytes (f : RvFile) (size off : Addr) : (rvread f size off).2.bytes = f.bytes :=
  (apply_ite RvFile.bytes _ _ _).trans (ite_self _)

theorem rvread_plain (f : RvFile) (size : Addr) {off : Addr} (plain : off ≠ rvfilePosition) :
    (rvread f size off).1.1 = (f.bytes.drop off.toNat).take size.toNat := by
  unfold rvread
  rw [if_neg plain]

theorem rvread_length (f : RvFile) (size off : Addr) : (rvread f size off).1.1.length ≤ size.toNat := by
  exact length_take_le _ _

theorem elfReadPhdr_bytes (h : ElfHeader) (f : RvFile) (i : Nat) : (elfReadPhdr h f i).2.bytes = f.bytes := by
  have same := rvread_bytes f h.phnsz (h.phentOff i)
  unfold elfReadPhdr
  dsimp only
  split <;> exact same

theorem elfScan_bytes (h : ElfHeader) (indices : List Nat) (span : ElfSpan) (f : RvFile) :
    (elfScan h indices span f).2.2.bytes = f.bytes := by
  induction indices generalizing span f with
  | nil => rfl
  | cons i rest ih =>
    have same := elfReadPhdr_bytes h f i
    unfold elfScan
    generalize elfReadPhdr h f i = out at same ⊢
    obtain ⟨found, f'⟩ := out
    cases found with
    | none => exact same
    | some ph => exact (ih _ f').trans same

/-- A segment has at most the bytes its header names, those at its offset in the file. -/
structure FromFile (bytes : List Byte) (seg : ElfSegment) : Prop where
  short : seg.bytes.length ≤ seg.ph.fsize.toNat
  plain : seg.ph.offset ≠ rvfilePosition → seg.bytes = (bytes.drop seg.ph.offset.toNat).take seg.ph.fsize.toNat

theorem elfSegments_fromFile (h : ElfHeader) (loaddr bufSize : Addr) (indices : List Nat) (f : RvFile) :
    ∀ seg ∈ (elfSegments h loaddr bufSize indices f).2, FromFile f.bytes seg := by
  induction indices generalizing f with
  | nil => exact nofun
  | cons i rest ih =>
    intro seg member
    have same := elfReadPhdr_bytes h f i
    unfold elfSegments at member
    generalize elfReadPhdr h f i = out at same member
    obtain ⟨found, f'⟩ := out
    cases found with
    | none => cases member
    | some ph =>
      dsimp only at same member
      have mine : FromFile f.bytes ⟨ph, (rvread f' ph.fsize ph.offset).1.1⟩ := by
        refine ⟨rvread_length _ _ _, fun plain => ?_⟩
        rw [← same]
        exact rvread_plain f' ph.fsize plain
      split at member
      · split at member
        · split at member
          · rcases mem_cons.mp member with rfl | later
            · exact mine
            · have kept := ih (rvread f' ph.fsize ph.offset).2 seg later
              rw [rvread_bytes, same] at kept
              exact kept
          · rw [mem_singleton.mp member]
            exact mine
        · cases member
      · rw [← same]
        exact ih f' seg member

theorem elfImage_fromFile (f : RvFile) (bufSize : Addr) :
    ∀ seg ∈ (elfImage f bufSize).segments, FromFile f.bytes seg := by
  intro seg member
  have same : (elfReadHeader f).2.bytes = f.bytes := by
    have read := rvread_bytes f 64 0
    unfold elfReadHeader
    dsimp only
    split <;> exact read
  unfold elfImage at member
  generalize elfReadHeader f = out at same member
  obtain ⟨found, f'⟩ := out
  cases found with
  | none => cases member
  | some h =>
    dsimp only at same member
    have scanned := elfScan_bytes h (range h.phnum.toNat) ⟨-1, 0⟩ f'
    generalize elfScan h (range h.phnum.toNat) ⟨-1, 0⟩ f' = scan at scanned member
    obtain ⟨done, span, last⟩ := scan
    cases done with
    | false => cases member
    | true =>
      have kept := elfSegments_fromFile h _ bufSize (range h.phnum.toNat) last seg member
      rw [scanned, same] at kept
      exact kept

section Copies
variable {base loaddr bufSize : Addr} {x : Nat}

theorem elfCopy_apply (base : Addr) (mem : HostMem) {seg : ElfSegment} (near : x < bufSize.toNat)
    (fits : seg.bytes ≠ [] → (seg.offset loaddr).toNat + seg.bytes.length ≤ bufSize.toNat) :
    elfCopy base loaddr mem seg (base + ofNat 64 x) =
      (seg.byteAt loaddr x).getD (mem (base + ofNat 64 x)) := by
  unfold elfCopy ElfSegment.byteAt
  generalize seg.offset loaddr = start at fits ⊢
  have distance : base + ofNat 64 x - (base + start) = ofNat 64 x - start := by bv_omega
  have short : seg.bytes.length < 2 ^ 64 := by
    by_cases none : seg.bytes = []
    · rw [none]
      decide
    · have ends := fits none
      omega
  have value (after : start.toNat ≤ x) : (ofNat 64 x - start).toNat = x - start.toNat := by
    rw [toNat_sub, toNat_ofNat]
    omega
  rw [HostMem.write_apply, distance]
  by_cases inside : start.toNat ≤ x ∧ x - start.toNat < seg.bytes.length
  · have written : ofNat 64 x - start < ofNat 64 seg.bytes.length := by
      rw [lt_def, value inside.1, toNat_ofNat, Nat.mod_eq_of_lt short]
      exact inside.2
    rw [if_pos written, if_pos inside.1, getElem?_eq_getElem inside.2, getD_some]
    unfold scratch
    rw [value inside.1, getD_eq_getElem?_getD, getElem?_eq_getElem inside.2, getD_some]
  · have kept : ¬ ofNat 64 x - start < ofNat 64 seg.bytes.length := by
      rw [lt_def, toNat_ofNat, Nat.mod_eq_of_lt short]
      by_cases after : start.toNat ≤ x
      · rw [value after]
        exact fun less => inside ⟨after, less⟩
      · rw [toNat_sub, toNat_ofNat]
        by_cases none : seg.bytes = []
        · rw [none]
          exact Nat.not_lt_zero _
        · have ends := fits none
          omega
    rw [if_neg kept]
    split
    case isTrue after => rw [getElem?_eq_none (Nat.le_of_not_lt fun less => inside ⟨after, less⟩),
      getD_none]
    case isFalse => rfl

theorem elfCopies_apply (segments : List ElfSegment) (mem : HostMem) (near : x < bufSize.toNat)
    (fits : ∀ seg ∈ segments, seg.bytes ≠ [] →
      (seg.offset loaddr).toNat + seg.bytes.length ≤ bufSize.toNat) :
    segments.foldl (elfCopy base loaddr) mem (base + ofNat 64 x) =
      leftAt loaddr x segments (mem (base + ofNat 64 x)) := by
  induction segments generalizing mem with
  | nil => rfl
  | cons seg rest ih =>
    have step := elfCopy_apply base mem near (fits seg mem_cons_self)
    rw [foldl_cons, ih _ fun other member => fits other (mem_cons_of_mem seg member), step]
    rfl

theorem leftAt_uncovered {bytes : List Byte} {segments : List ElfSegment} (byte : Byte)
    (fromFile : ∀ seg ∈ segments, FromFile bytes seg) (apart : ∀ seg ∈ segments, ¬ seg.Covers loaddr x) :
    leftAt loaddr x segments byte = byte := by
  induction segments generalizing byte with
  | nil => rfl
  | cons seg rest ih =>
    have nothing : seg.byteAt loaddr x = none := by
      have short := (fromFile seg mem_cons_self).short
      have away := apart seg mem_cons_self
      unfold ElfSegment.Covers at away
      unfold ElfSegment.byteAt
      split
      · rw [getElem?_eq_none (by omega)]
      · rfl
    change leftAt loaddr x rest ((seg.byteAt loaddr x).getD byte) = byte
    rw [nothing]
    exact ih byte (fun other member => fromFile other (mem_cons_of_mem seg member))
      fun other member => apart other (mem_cons_of_mem seg member)

theorem inside_iff (seg : ElfSegment) :
    (∀ i < seg.bytes.length, seg.offset loaddr + ofNat 64 i < bufSize) ↔
      (seg.bytes ≠ [] → (seg.offset loaddr).toNat + seg.bytes.length ≤ bufSize.toNat) := by
  constructor
  · intro inside some
    have positive := length_pos_iff.mpr some
    by_cases wraps : (seg.offset loaddr).toNat + seg.bytes.length ≤ 2 ^ 64
    · have last := inside (seg.bytes.length - 1) (by omega)
      rw [lt_def, toNat_add, toNat_ofNat] at last
      omega
    · have top := inside (2 ^ 64 - 1 - (seg.offset loaddr).toNat) (by omega)
      rw [lt_def, toNat_add, toNat_ofNat] at top
      omega
  · intro fits i inside
    have ends := fits (ne_nil_of_length_pos (Nat.zero_lt_of_lt inside))
    rw [lt_def, toNat_add, toNat_ofNat]
    omega

end Copies

section Load
variable {f : RvFile} {base bufSize : Addr} {mem : HostMem} {earlier later : List ElfSegment} {seg : ElfSegment}

theorem fromFile_of_split (parts : (elfImage f bufSize).segments = earlier ++ seg :: later) :
    FromFile f.bytes seg ∧ ∀ other ∈ later, FromFile f.bytes other := by
  have all := elfImage_fromFile f bufSize
  rw [parts] at all
  exact ⟨all seg (mem_append_right _ mem_cons_self),
    fun other member => all other (mem_append_right _ (mem_cons_of_mem _ member))⟩

/-- A place that no later segment occupies keeps the byte of the segment, or what was there before it. -/
theorem elfLoadFile_apply
    (copies : ∀ seg ∈ (elfImage f bufSize).segments, seg.bytes ≠ [] →
      (seg.offset (elfImage f bufSize).loaddr).toNat + seg.bytes.length ≤ bufSize.toNat)
    (parts : (elfImage f bufSize).segments = earlier ++ seg :: later) {k : Nat}
    (near : (seg.offset (elfImage f bufSize).loaddr).toNat + k < bufSize.toNat)
    (last : ∀ other ∈ later,
      ¬ other.Covers (elfImage f bufSize).loaddr ((seg.offset (elfImage f bufSize).loaddr).toNat + k)) :
    (elfLoadFile f base bufSize mem).2
        (base + ofNat 64 ((seg.offset (elfImage f bufSize).loaddr).toNat + k)) =
      (seg.bytes[k]?).getD (leftAt (elfImage f bufSize).loaddr
        ((seg.offset (elfImage f bufSize).loaddr).toNat + k) earlier
        (mem (base + ofNat 64 ((seg.offset (elfImage f bufSize).loaddr).toNat + k)))) := by
  have own (x : Nat) : seg.byteAt (elfImage f bufSize).loaddr
      ((seg.offset (elfImage f bufSize).loaddr).toNat + x) = seg.bytes[x]? := by
    rw [ElfSegment.byteAt, if_pos (Nat.le_add_right _ _), Nat.add_sub_cancel_left]
  refine (elfCopies_apply _ mem near copies).trans ?_
  rw [parts, leftAt, foldl_append, foldl_cons, own]
  exact leftAt_uncovered _ (fromFile_of_split parts).2 last

theorem FromFile.byte_iff (fromFile : FromFile f.bytes seg) {k : Nat} (stored : k < seg.ph.fsize.toNat)
    (byte : Byte) :
    f.bytes[seg.ph.offset.toNat + k]? = some ((seg.bytes[k]?).getD byte) ↔
      k < seg.bytes.length ∧ seg.ph.offset ≠ rvfilePosition := by
  have short := f.short
  by_cases plain : seg.ph.offset = rvfilePosition
  · have far : seg.ph.offset.toNat = 2 ^ 64 - 1 := by
      rw [plain]
      rfl
    rw [getElem?_eq_none (by omega)]
    exact ⟨fun found => (by cases found), fun both => absurd plain both.2⟩
  · have length : seg.bytes.length = min seg.ph.fsize.toNat (f.bytes.length - seg.ph.offset.toNat) := by
      rw [fromFile.plain plain, length_take, length_drop]
    constructor
    · intro found
      obtain ⟨inside, -⟩ := List.getElem?_eq_some_iff.mp found
      exact ⟨by omega, plain⟩
    · rintro ⟨inside, -⟩
      have same : seg.bytes[k]? = f.bytes[seg.ph.offset.toNat + k]? := by
        rw [fromFile.plain plain, getElem?_take_of_lt stored, getElem?_drop]
      rw [same, getElem?_eq_getElem (by omega), getD_some]

end Load

def oneSegmentBytes (fsize memsz : Byte) : List Byte :=
  [0x7F, 0x45, 0x4C, 0x46, 2, 1] ++ replicate 26 0 ++ [0x40] ++ replicate 23 0 ++
    [1] ++ replicate 7 0 ++
    [1, 0, 0, 0] ++ replicate 12 0 ++ [0, 0, 0, 0x80] ++ replicate 12 0 ++
    [fsize] ++ replicate 7 0 ++
    [memsz] ++ replicate 15 0

theorem oneSegmentBytes_length (fsize memsz : Byte) : (oneSegmentBytes fsize memsz).length = 120 := rfl

def oneSegmentFile (fsize memsz : Byte) : RvFile where
  bytes := oneSegmentBytes fsize memsz
  pos := 0
  short := by rw [oneSegmentBytes_length]; decide

end Rvvm
