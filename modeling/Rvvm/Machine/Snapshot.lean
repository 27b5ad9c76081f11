import Rvvm.Machine.BlkHead

/-! Snapshots: named sections on a block device, each behind a header that holds the position of the next one.
The header of a section gets that position when the next section is begun. -/
namespace Rvvm.Snapshot
open List Runs Slices
open BitVec (ofNat ofNat_add toNat_ofNat)

structure Snap where
  blk : BlkDisk
  off : Addr
  out : Bool
  err : Bool

def rvvmSnapshotOpen (blk : BlkDisk) (write : Bool) : Snap := ⟨blk, 0, write, false⟩

def rvvmSnapshotClose (snap : Snap) : Bool := !snap.err

def snapMagic : List Byte :=
  [0x7F, 0x72, 0x76, 0x76, 0x6D, 0x2D, 0x73, 0x6E, 0x61, 0x70, 0x73, 0x68, 0x6F, 0x74, 0x30, 0xFF]

def uint64Le (val : Addr) : List Byte := (range 8).map fun i => (val >>> (8 * i)).setWidth 8

def snapHeader (next : Addr) : List Byte := snapMagic ++ uint64Le next

def rvvmStrcmp : List Byte → List Byte → Bool
  | [], s2 => s2.headD 0 == 0
  | c :: s1, s2 => if c ≠ 0 ∧ c = s2.headD 0 then rvvmStrcmp s1 s2.tail else c == s2.headD 0

section Calls
variable (cb : BlkBackend) (snap : Snap)

def writeNext : Bool × Snap :=
  let prev := snap.off
  let off := rvvmBlkTellHead snap.blk
  let patch := snap.blk.rvvmBlkWrite cb (snapHeader off) prev
  if patch.1 = 24 then
    let first := rvvmBlkWriteHead cb patch.2.2 (snapHeader 0)
    if first.1 = 24 then (true, { snap with blk := first.2.2, off })
    else (false, { snap with blk := first.2.2, off, err := true })
  else (false, { snap with blk := patch.2.2, off, err := true })

def readNext : Bool × Snap :=
  let header := rvvmBlkReadHead cb snap.blk 24
  if header.1.length = 24 ∧ header.1.take 16 = snapMagic then
    (true, { snap with blk := header.2.2, off := readUint64Le (fun p => header.1.getD p.toNat 0) 16 })
  else (false, { snap with blk := header.2.2, err := true })

def rvvmSnapshotSectionNext : Bool × Snap := if snap.out then writeNext cb snap else readNext cb snap

/-- The buffer comes back with what was read into it. -/
def rvvmSnapshotData (data : List Byte) : Bool × List Byte × Snap :=
  if snap.err then (false, data, snap)
  else if snap.out then
    let written := rvvmBlkWriteHead cb snap.blk data
    (written.1 = data.length, data, { snap with blk := written.2.2 })
  else if rvvmBlkTellHead snap.blk + ofNat 64 data.length > snap.off then (false, data, snap)
  else
    let read := rvvmBlkReadHead cb snap.blk data.length
    (read.1.length = data.length, read.1 ++ data.drop read.1.length, { snap with blk := read.2.2 })

end Calls

/-- The loop of `rvvm_snapshot_section`: a reader goes on until it finds the name. Each round takes 24 bytes of
the device, which bounds the rounds. -/
def sectionLoop (cb : BlkBackend) (name : List Byte) (len : Nat) : Nat → List Byte → Snap → Bool × Snap
  | 0, _, snap => (false, snap)
  | rounds + 1, buf, snap =>
    let next := rvvmSnapshotSectionNext cb snap
    if next.1 then
      let named := rvvmSnapshotData cb next.2 (buf.take len)
      if named.1 then
        if !named.2.2.out && !rvvmStrcmp (named.2.1 ++ buf.drop len) name then
          sectionLoop cb name len rounds (named.2.1 ++ buf.drop len) named.2.2
        else (true, named.2.2)
      else (false, named.2.2)
    else (false, next.2)

def rvvmSnapshotSection (cb : BlkBackend) (snap : Snap) (name : List Byte) : Bool × Snap :=
  if snap.err then (false, snap)
  else
    let len := if name.length > 255 then 255 else name.length
    let buf := if snap.out then name.take len ++ replicate (256 - len) 0 else replicate 256 0
    sectionLoop cb name len (snap.blk.size.toNat + 1) buf snap

/-! Sessions. -/

inductive SnapCall
  | sect (name : List Byte)
  | data (buf : List Byte)

structure SnapReply where
  ok : Bool
  data : List Byte
  deriving DecidableEq

def SnapCall.run (cb : BlkBackend) (snap : Snap) : SnapCall → SnapReply × Snap
  | sect name => (⟨(rvvmSnapshotSection cb snap name).1, []⟩, (rvvmSnapshotSection cb snap name).2)
  | data buf =>
    (⟨(rvvmSnapshotData cb snap buf).1, (rvvmSnapshotData cb snap buf).2.1⟩, (rvvmSnapshotData cb snap buf).2.2)

def snapStep (snap : Snap) (call : BlkBackend × SnapCall) : Snap := (call.2.run call.1 snap).2

def snapReplies : Snap → List (BlkBackend × SnapCall) → List SnapReply
  | _, [] => []
  | snap, call :: calls => (call.2.run call.1 snap).1 :: snapReplies (snapStep snap call) calls

/-! What is written, and how it lies on the device. -/

/-- A section: its name as a C string, and the data it is given. -/
structure SnapSection where
  name : List Byte
  chunks : List (List Byte)
  nonempty : name ≠ []
  short : name.length ≤ 255
  text : ∀ c ∈ name, c ≠ 0

namespace SnapSection

def bytes (s : SnapSection) : List Byte := s.chunks.flatten

def content (s : SnapSection) : List Byte := s.name ++ s.bytes

def size (s : SnapSection) : Nat := 24 + s.content.length

def record (next : Nat) (s : SnapSection) : List Byte := snapHeader (ofNat 64 next) ++ s.content

end SnapSection

/-- Sections at `pos`, each of which knows its successor. -/
def linked : Nat → List SnapSection → List Byte
  | _, [] => []
  | pos, s :: rest => s.record (pos + s.size) ++ linked (pos + s.size) rest

/-- A whole snapshot at `pos`: the last section knows no successor. -/
def layout : Nat → List SnapSection → List Byte
  | _, [] => []
  | _, [s] => s.record 0
  | pos, s :: s' :: rest => s.record (pos + s.size) ++ layout (pos + s.size) (s' :: rest)

def writeScript (sections : List SnapSection) : List SnapCall :=
  sections.flatMap fun s => .sect s.name :: s.chunks.map .data

section Layout

@[simp] theorem length_snapHeader (next : Addr) : (snapHeader next).length = 24 := rfl

theorem length_record (next : Nat) (s : SnapSection) : (s.record next).length = s.size := by
  rw [SnapSection.record, length_append]
  rfl

section
variable (pos : Nat) (sections : List SnapSection)
include pos sections

theorem linked_append (s : SnapSection) :
    linked pos (sections ++ [s]) =
      linked pos sections ++ s.record (pos + (linked pos sections).length + s.size) := by
  induction sections generalizing pos with
  | nil =>
    change s.record (pos + s.size) ++ [] = s.record (pos + 0 + s.size)
    rw [append_nil, Nat.add_zero]
  | cons t rest ih =>
    rw [cons_append, linked, linked, ih, append_assoc, length_append, length_record,
      ← Nat.add_assoc]

theorem length_layout :
    (layout pos sections).length = (sections.map SnapSection.size).sum := by
  induction sections generalizing pos with
  | nil => rfl
  | cons s rest ih =>
    cases rest with
    | nil => exact length_record 0 s
    | cons t rest =>
      rw [layout, length_append, length_record, ih]
      rfl

theorem layout_append (s : SnapSection) :
    layout pos (sections ++ [s]) = linked pos sections ++ s.record 0 := by
  induction sections generalizing pos with
  | nil => rfl
  | cons t rest ih =>
    rw [linked, append_assoc, ← ih]
    cases rest with
    | nil => rfl
    | cons t' rest => rfl
end

end Layout

/-- The writer has put `bytes` on the device; its last header is at `off`. -/
structure Writing (snap : Snap) (bytes : List Byte) (off : Nat) : Prop where
  out : snap.out = true
  clean : snap.err = false
  head : snap.blk.head = ofNat 64 bytes.length
  size : bytes.length ≤ snap.blk.size.toNat
  off : snap.off = ofNat 64 off
  image : load snap.blk.image 0 bytes.length = bytes

section Writer
variable {cb : BlkBackend} {d : BlkDisk} {bytes : List Byte}

theorem load_store_behind {image : Nat → Byte} (held : load image 0 bytes.length = bytes)
    (more : List Byte) : load (store image bytes.length more) 0 (bytes ++ more).length = bytes ++ more := by
  have first : load (store image bytes.length more) 0 bytes.length = bytes :=
    (load_store_apart image (.inl (by omega))).trans held
  rw [length_append, load_add, Nat.zero_add, load_store, first]

theorem load_store_middle {image : Nat → Byte} {a b c : List Byte}
    (held : load image 0 (a ++ b ++ c).length = a ++ b ++ c) {b' : List Byte} (same : b'.length = b.length) :
    load (store image a.length b') 0 (a ++ b' ++ c).length = a ++ b' ++ c := by
  rw [length_append, length_append, load_add, load_add, Nat.zero_add] at held ⊢
  obtain ⟨front, back⟩ := append_inj held (by simp)
  obtain ⟨front, -⟩ := append_inj front (by simp)
  rw [load_store_apart image (.inl (by omega)), load_store, load_store_apart image (.inr (by omega)), front,
    same, back]

theorem writeHead_whole {src : List Byte} (near : d.head.toNat + src.length < 2 ^ 63)
    (reaches : d.head.toNat ≤ d.size.toNat) (whole : (rvvmBlkWriteHead cb d src).1 = src.length) :
    (rvvmBlkWriteHead cb d src).2.2.image = store d.image d.head.toNat src ∧
      (rvvmBlkWriteHead cb d src).2.2.head = d.head + ofNat 64 src.length ∧
      d.head.toNat + src.length ≤ (rvvmBlkWriteHead cb d src).2.2.size.toNat := by
  obtain ⟨count, image, head, -⟩ := BlkDisk.rvvmBlkWriteHead_near cb near
  rw [whole] at count
  rw [← count] at image head
  rw [take_length] at image
  have grown := BlkDisk.rvvmBlkWriteHead_reaches cb (by omega : src.length < 2 ^ 64) reaches
  rw [whole] at grown
  exact ⟨image, head, grown⟩

variable {snap : Snap} {off : Nat}

theorem rvvmSnapshotData_writes {bytes data : List Byte}
    (writing : Writing snap bytes off)
    (near : (bytes ++ data).length < 2 ^ 63) (ok : (rvvmSnapshotData cb snap data).1 = true) :
    Writing (rvvmSnapshotData cb snap data).2.2 (bytes ++ data) off := by
  have length : (bytes ++ data).length = bytes.length + data.length := length_append
  have position : snap.blk.head.toNat = bytes.length := by
    rw [writing.head, toNat_ofNat]
    omega
  unfold rvvmSnapshotData at *
  rw [writing.clean, if_neg nofun, writing.out, if_pos rfl] at *
  obtain ⟨image, head, size⟩ := writeHead_whole (by omega) (by rw [position]; exact writing.size)
    (of_decide_eq_true ok)
  rw [position] at image size
  refine ⟨rfl, rfl, ?_, by dsimp only; omega, writing.off, ?_⟩
  · rw [head, writing.head, length, ofNat_add]
  · rw [image]
    exact load_store_behind writing.image data

theorem patch_whole {next prev : Addr} (whole : (d.rvvmBlkWrite cb (snapHeader next) prev).1 = 24) :
    (d.rvvmBlkWrite cb (snapHeader next) prev).2.2.image = store d.image prev.toNat (snapHeader next) ∧
      (d.rvvmBlkWrite cb (snapHeader next) prev).2.2.head = d.head ∧
      d.size ≤ (d.rvvmBlkWrite cb (snapHeader next) prev).2.2.size := by
  have small : (snapHeader next).length < 2 ^ 64 := by rw [length_snapHeader]; decide
  obtain ⟨count, image, head, -⟩ := BlkDisk.rvvmBlkWrite_effect cb prev small
  rw [whole] at count
  rw [← count] at image
  refine ⟨image, head, (BlkDisk.write_grown ⟨snapHeader next, small⟩ ?_).2⟩
  dsimp only
  omega

theorem writeNext_headers (near : snap.blk.head.toNat + 24 < 2 ^ 63)
    (reaches : snap.blk.head.toNat ≤ snap.blk.size.toNat) (ok : (writeNext cb snap).1 = true) :
    let patched := store snap.blk.image snap.off.toNat (snapHeader snap.blk.head)
    (writeNext cb snap).2.out = snap.out ∧ (writeNext cb snap).2.err = snap.err ∧
      (writeNext cb snap).2.off = snap.blk.head ∧
      (writeNext cb snap).2.blk.image = store patched snap.blk.head.toNat (snapHeader 0) ∧
      (writeNext cb snap).2.blk.head = snap.blk.head + 24 ∧
      snap.blk.head.toNat + 24 ≤ (writeNext cb snap).2.blk.size.toNat := by
  intro patched
  unfold writeNext at *
  dsimp only [rvvmBlkTellHead] at *
  split at ok
  case isTrue whole =>
    obtain ⟨image, head, grown⟩ := patch_whole whole
    rw [if_pos whole]
    generalize (snap.blk.rvvmBlkWrite cb (snapHeader snap.blk.head) snap.off).2.2 = d at *
    have further : snap.blk.size.toNat ≤ d.size.toNat := grown
    split at ok
    case isTrue whole' =>
      obtain ⟨image', head', size'⟩ :=
        writeHead_whole (by rw [head, length_snapHeader]; omega) (by rw [head]; omega) whole'
      rw [if_pos whole']
      rw [head] at image' head' size'
      rw [image] at image'
      exact ⟨rfl, rfl, rfl, image', head', size'⟩
    case isFalse => cases ok
  case isFalse => cases ok

theorem writeNext_writes {front content : List Byte}
    (writing : Writing snap (front ++ snapHeader 0 ++ content) front.length)
    (near : (front ++ snapHeader 0 ++ content ++ snapHeader 0).length < 2 ^ 63)
    (ok : (writeNext cb snap).1 = true) :
    Writing (writeNext cb snap).2
      (front ++ snapHeader (ofNat 64 (front.length + 24 + content.length)) ++ content ++ snapHeader 0)
      (front.length + 24 + content.length) := by
  have length (next : Addr) : (front ++ snapHeader next ++ content).length
    = front.length + 24 + content.length := by
    rw [length_append, length_append, length_snapHeader]
  have whole : (front ++ snapHeader 0 ++ content ++ snapHeader 0).length
    = front.length + 24 + content.length + 24 := by
    rw [length_append, length, length_snapHeader]
  have head := writing.head
  have size := writing.size
  have image := writing.image
  rw [length] at head size
  have position : snap.blk.head.toNat = front.length + 24 + content.length := by
    rw [head, toNat_ofNat]
    omega
  have back : snap.off.toNat = front.length := by
    rw [writing.off, toNat_ofNat]
    omega
  obtain ⟨out, err, off, disk, head', size'⟩ := writeNext_headers (by omega) (by omega) ok
  rw [back, position, head] at disk
  have patched := load_store_middle image
    (length_snapHeader (ofNat 64 (front.length + 24 + content.length)))
  have behind := load_store_behind patched (snapHeader 0)
  rw [length] at behind
  refine ⟨out.trans writing.out, err.trans writing.clean, ?_, ?_, off.trans head, ?_⟩
  · rw [head', head, length_append, length, length_snapHeader]
    exact (ofNat_add _ 24).symm
  · rw [length_append, length, length_snapHeader]
    omega
  · rw [disk]
    exact behind

theorem writeNext_first (writing : Writing snap [] 0) (ok : (writeNext cb snap).1 = true) :
    Writing (writeNext cb snap).2 (snapHeader 0) 0 := by
  have head : snap.blk.head = 0 := writing.head
  have position : snap.blk.head.toNat = 0 := by rw [head]; rfl
  obtain ⟨out, err, off, disk, head', size'⟩ := writeNext_headers (by omega) (by omega) ok
  refine ⟨out.trans writing.out, err.trans writing.clean, ?_, ?_, off.trans head, ?_⟩
  · rw [head', head]
    rfl
  · rw [length_snapHeader]
    omega
  · rw [disk, position]
    exact load_store _ 0 (snapHeader 0)

theorem rvvmSnapshotSection_writes {name : List Byte} (out : snap.out = true)
    (clean : snap.err = false) (short : name.length ≤ 255) (ok : (rvvmSnapshotSection cb snap name).1 = true) :
    (writeNext cb snap).1 = true ∧ (rvvmSnapshotData cb (writeNext cb snap).2 name).1 = true ∧
      (rvvmSnapshotSection cb snap name).2 = (rvvmSnapshotData cb (writeNext cb snap).2 name).2.2 := by
  have next : rvvmSnapshotSectionNext cb snap = writeNext cb snap := if_pos out
  have take : (name ++ replicate (256 - name.length) (0 : Byte)).take name.length = name := take_left
  have stays : (writeNext cb snap).2.out = true := by
    unfold writeNext
    dsimp only
    split
    · split <;> exact out
    · exact out
  have stays' : (rvvmSnapshotData cb (writeNext cb snap).2 name).2.2.out = true := by
    unfold rvvmSnapshotData
    split
    · exact stays
    · exact stays
  have call : rvvmSnapshotSection cb snap name = sectionLoop cb name name.length (snap.blk.size.toNat + 1)
      (name ++ replicate (256 - name.length) 0) snap := by
    simp [rvvmSnapshotSection, clean, out, if_neg (Nat.not_lt.mpr short)]
  rw [call] at ok ⊢
  unfold sectionLoop at ok ⊢
  dsimp only at ok ⊢
  rw [next, take] at ok ⊢
  split at ok
  case isTrue first =>
    split at ok
    case isTrue second =>
      rw [if_pos first, if_pos second, stays']
      exact ⟨first, second, rfl⟩
    case isFalse => cases ok
  case isFalse => cases ok

theorem snapReplies_append (snap : Snap) (first later : List (BlkBackend × SnapCall)) :
    snapReplies snap (first ++ later) = snapReplies snap first ++ snapReplies
      (final snapStep snap first) later := by
  induction first generalizing snap with
  | nil => rfl
  | cons call rest ih => exact congrArg (cons _) (ih _)

def AllOk (snap : Snap) (calls : List (BlkBackend × SnapCall)) : Prop :=
  ∀ reply ∈ snapReplies snap calls, reply.ok = true

theorem AllOk.split {first later : List (BlkBackend × SnapCall)} (ok : AllOk snap (first ++ later)) :
    AllOk snap first ∧ AllOk (final snapStep snap first) later := by
  unfold AllOk at *
  rw [snapReplies_append] at ok
  exact ⟨fun reply member => ok reply (mem_append_left _ member),
    fun reply member => ok reply (mem_append_right _ member)⟩

variable {calls : List (BlkBackend × SnapCall)}

theorem data_calls_write
    {chunks : List (List Byte)} (script : calls.map Prod.snd = chunks.map .data) (writing : Writing snap bytes off)
    (near : (bytes ++ chunks.flatten).length < 2 ^ 63) (ok : AllOk snap calls) :
    Writing (final snapStep snap calls) (bytes ++ chunks.flatten) off := by
  induction chunks generalizing snap bytes calls with
  | nil =>
    rw [map_nil, map_eq_nil_iff] at script
    rw [script, flatten_nil, append_nil]
    exact writing
  | cons chunk rest ih =>
    obtain ⟨⟨cb, call⟩, calls, rfl, rfl, script'⟩ := map_eq_cons_iff.mp script
    rw [flatten_cons, ← append_assoc] at near ⊢
    have short : (bytes ++ chunk).length < 2 ^ 63 := by
      rw [length_append] at near
      omega
    have written := rvvmSnapshotData_writes writing short (ok _ mem_cons_self)
    change Writing (final snapStep (snapStep snap (cb, .data chunk)) calls) _ _
    exact ih script' written near fun reply member => ok reply (mem_cons_of_mem _ member)

theorem section_calls_write {s : SnapSection}
    (script : calls.map Prod.snd = .sect s.name :: s.chunks.map .data)
    (out : snap.out = true) (clean : snap.err = false)
    (header : ∀ cb, (writeNext cb snap).1 = true → Writing (writeNext cb snap).2 bytes off)
    (near : (bytes ++ s.content).length < 2 ^ 63) (ok : AllOk snap calls) :
    Writing (final snapStep snap calls) (bytes ++ s.content) off := by
  obtain ⟨⟨cb, call⟩, calls, rfl, rfl, script'⟩ := map_eq_cons_iff.mp script
  obtain ⟨first, second, after⟩ := rvvmSnapshotSection_writes out clean s.short (ok _ mem_cons_self)
  have content : bytes ++ s.content = bytes ++ s.name ++ s.chunks.flatten := by
    rw [append_assoc]
    rfl
  rw [content] at near ⊢
  have short : (bytes ++ s.name).length < 2 ^ 63 := by
    rw [length_append] at near
    omega
  have named := rvvmSnapshotData_writes (header cb first) short second
  rw [← after] at named
  change Writing (final snapStep (snapStep snap (cb, .sect s.name)) calls) _ _
  exact data_calls_write script' named near fun reply member => ok reply (mem_cons_of_mem _ member)

theorem sections_write {before : List SnapSection} {last : SnapSection} {sections : List SnapSection}
    (script : calls.map Prod.snd = writeScript sections)
    (writing : Writing snap (layout 0 (before ++ [last])) (linked 0 before).length)
    (near : (layout 0 (before ++ [last] ++ sections)).length < 2 ^ 63) (ok : AllOk snap calls) :
    ∃ off, Writing (final snapStep snap calls) (layout 0 (before ++ [last] ++ sections)) off := by
  induction sections generalizing snap before last calls with
  | nil =>
    rw [writeScript, flatMap_nil, map_eq_nil_iff] at script
    rw [script, append_nil]
    exact ⟨_, writing⟩
  | cons s rest ih =>
    obtain ⟨first, later, rfl, here, there⟩ := map_eq_append_iff.mp script
    obtain ⟨ok, ok'⟩ := ok.split
    have shape : before ++ [last] ++ s :: rest = before ++ [last] ++ [s] ++ rest := by
      rw [append_assoc _ [s], singleton_append]
    rw [shape] at near ⊢
    have within : (layout 0 (before ++ [last] ++ [s])).length < 2 ^ 63 := by
      rw [length_layout, map_append, sum_append] at near
      rw [length_layout]
      omega
    have after : Writing (final snapStep snap first) (layout 0 (before ++ [last] ++ [s]))
        (linked 0 (before ++ [last])).length := by
      rw [layout_append] at within ⊢
      rw [SnapSection.record, ← append_assoc] at within ⊢
      refine section_calls_write here writing.out writing.clean (fun cb first => ?_) within ok
      rw [layout_append, SnapSection.record, ← append_assoc] at writing
      have size : (linked 0 (before ++ [last])).length =
        (linked 0 before).length + 24 + last.content.length := by
        rw [linked_append, length_append, length_record, SnapSection.size, Nat.add_assoc]
      have bytes : linked 0 (before ++ [last]) = linked 0 before ++
          snapHeader (ofNat 64 ((linked 0 before).length + 24 + last.content.length)) ++ last.content := by
        rw [linked_append, SnapSection.record, ← append_assoc, SnapSection.size, Nat.zero_add,
          Nat.add_assoc]
      rw [size, bytes]
      refine writeNext_writes writing ?_ first
      rw [length_append, length_append, length_snapHeader] at within
      rw [length_append, length_append, length_append, length_snapHeader]
      omega
    rw [final_append]
    exact ih there after near ok'

theorem session_writes (start : Writing snap [] 0) {sections : List SnapSection}
    (script : calls.map Prod.snd = writeScript sections) (near : (layout 0 sections).length < 2 ^ 63)
    (ok : AllOk snap calls) : ∃ off, Writing (final snapStep snap calls) (layout 0 sections) off := by
  cases sections with
  | nil =>
    rw [writeScript, flatMap_nil, map_eq_nil_iff] at script
    rw [script]
    exact ⟨0, start⟩
  | cons s rest =>
    obtain ⟨first, later, rfl, here, there⟩ := map_eq_append_iff.mp script
    obtain ⟨ok, ok'⟩ := ok.split
    have within : (snapHeader 0 ++ s.content).length < 2 ^ 63 := by
      rw [length_layout, map_cons, sum_cons] at near
      rw [length_append]
      change s.size < _
      omega
    have after : Writing (final snapStep snap first) (layout 0 ([] ++ [s])) (linked 0 []).length :=
      section_calls_write here start.out start.clean (fun cb ok => writeNext_first start ok) within ok
    rw [final_append]
    exact sections_write there after near ok'

end Writer

end Rvvm.Snapshot
