import Rvvm.Devices.Ata

/-! Programmed input and output on the ATA drive, over whole sequences of register accesses. -/
namespace Rvvm.Ata
open BitVec List Nat Option Runs Slices
open BitVec (ofNat)

/-- An access to the data registers or to the control register. -/
inductive PioAccess
  | read (offset : Nat) (size : OpSize)
  | write (offset : Nat) (data : OpData)
  | ctlRead (offset : Nat)
  | ctlWrite (offset : Nat) (data : Byte)

def PioAccess.run (cb : BlkBackend) (ata : AtaDev) : PioAccess → List Byte × AtaDev
  | read offset size => ataDataRead cb ata (ataReg offset) size
  | write offset data => ([], ataDataWrite cb ata (ataReg offset) data)
  | ctlRead offset => ([ataCtlRead ata offset], ata)
  | ctlWrite offset data => ([], ataCtlWrite ata offset data)

/-- Accesses that make up whole sectors, none of them across the end of one. -/
structure Sectored (α : Type) (size : α → Nat) where
  sectors : List (List α)
  full : ∀ sector ∈ sectors, (sector.map size).sum = 512
  some : 0 < sectors.length
  few : sectors.length ≤ 256

def Sectored.nsect {α : Type} {size : α → Nat} (s : Sectored α size) : Byte := ofNat 8 s.sectors.length

abbrev SectorReads := Sectored OpSize fun size => size.1

abbrev SectorWrites := Sectored OpData fun data => data.1.length

def SectorWrites.bytes (s : SectorWrites) : List Byte := s.sectors.flatten.flatMap fun data => data.1

section Sessions
variable (cb : BlkBackend)

/-- Reads of the data register, and what they return. -/
def readAll : AtaDev → List OpSize → List Byte × AtaDev
  | ata, [] => ([], ata)
  | ata, size :: rest =>
    let first := ataDataRead cb ata (ataReg 0) size
    let later := readAll first.2 rest
    (first.1 ++ later.1, later.2)

def writeAll : AtaDev → List OpData → AtaDev
  | ata, [] => ata
  | ata, data :: rest => writeAll (ataDataWrite cb ata (ataReg 0) data) rest

def readSectors (ata : AtaDev) (lba : BitVec 28) (s : SectorReads) : List Byte × AtaDev :=
  readAll cb (ataDataWrite cb (ataAddress lba s.nsect cb ata) (ataReg 7) (single 0x20)) s.sectors.flatten

def writeSectors (ata : AtaDev) (lba : BitVec 28) (s : SectorWrites) : AtaDev :=
  writeAll cb (ataDataWrite cb (ataAddress lba s.nsect cb ata) (ataReg 7) (single 0x30)) s.sectors.flatten

end Sessions

/-- A transfer from its command to its last byte, or any single access. -/
inductive PioAct
  | read (lba : BitVec 28) (s : SectorReads)
  | write (lba : BitVec 28) (s : SectorWrites)
  | access (access : PioAccess)

/-- The image backend may answer each act in its own way. -/
def pioStep (ata : AtaDev) : BlkBackend × PioAct → AtaDev
  | (cb, .read lba s) => (readSectors cb ata lba s).2
  | (cb, .write lba s) => writeSectors cb ata lba s
  | (cb, .access access) => (access.run cb ata).2

def Inside (ata : AtaDev) (lba : BitVec 28) (n : Nat) : Prop :=
  ∃ d, ata.blk = some d ∧ (lba.toNat + n) * 512 ≤ d.size.toNat

/-- Sectors are read and written as they are asked for, and no byte of the disk changes otherwise. -/
def PioLawful (ata : AtaDev) : BlkBackend × PioAct → Prop
  | (cb, .read lba s) => Inside ata lba s.sectors.length →
      (readSectors cb ata lba s).1 = load (imageOf ata.blk) (lba.toNat * 512) (s.sectors.length * 512) ∧
        imageOf (readSectors cb ata lba s).2.blk = imageOf ata.blk
  | (cb, .write lba s) => Inside ata lba s.sectors.length →
      imageOf (writeSectors cb ata lba s).blk = store (imageOf ata.blk) (lba.toNat * 512) s.bytes
  | (cb, .access access) => imageOf (access.run cb ata).2.blk = imageOf ata.blk

/-! What keeps the drive to that. -/

/-- What the disk stores of these bytes is there already. -/
def BlkKeeps (cb : BlkBackend) (d : BlkDisk) (off : Addr) (src : List Byte) : Prop :=
  src.take (d.served cb false off src.length) = load d.image off.toNat (d.served cb false off src.length)

/-- The sector buffer, on its way to the disk at `off`, would not change it. -/
def BufKeeps (cb : BlkBackend) (blk : Option BlkDisk) (off : BlkDisk → Addr) (buf : Nat → Byte) : Prop :=
  ∀ d, blk = some d → BlkKeeps cb d (off d) (load buf 0 512)

/-- A single access neither completes a sector in the buffer nor commands one to be written, unless the disk has
it already. -/
def PioAccess.Harmless (cb : BlkBackend) (ata : AtaDev) : PioAccess → Prop
  | .write offset data =>
    (ataReg offset = .data → takes ata data.1.length = true → ata.bytesToRw = data.1.length →
      BufKeeps cb ata.blk (fun d => d.head) (store ata.buf (ataSectorSize - ata.bytesToRw) data.1)) ∧
    (ataReg offset = .status → ataDriveValid ata = true → ataCmd (data.1.headD 0) = .writeSectors →
      BufKeeps cb ata.blk (fun _ => ataGetSeek ata) ata.buf)
  | _ => True

/-- The host serves the reads; a write finds no bytes pending, and its data already in place once the buffer
was stored at its first sector. -/
def PioSafe (ata : AtaDev) : BlkBackend × PioAct → Prop
  | (cb, .read lba s) => ∀ d, ata.blk = some d → d.read = true ∧
      ∀ k < s.sectors.length, cb.read (ofNat 64 ((lba.toNat + k) * 512)) 512 = 512
  | (cb, .write lba s) => ata.bytesToRw = 0 ∧ ∀ d, ata.blk = some d →
      let stored := d.served cb false (lba.setWidth 64 <<< 9) 512
      load ata.buf 0 stored ++ load d.image (lba.toNat * 512 + stored) (s.sectors.length * 512 - stored) = s.bytes
  | (cb, .access access) => access.Harmless cb ata

section Reading
variable {cb : BlkBackend} {ata : AtaDev} {d : BlkDisk}

/-- The sector at `pos` is in the buffer, and `k` sectors are still to be delivered. -/
structure Reading (d : BlkDisk) (pos k : Nat) (ata : AtaDev) : Prop where
  disk : ata.blk = some { d with head := ofNat 64 (pos + 512) }
  first : ata.drive = 0
  count : ata.sectcount = ofNat 16 k
  bytes : ata.bytesToRw = 512
  buf : load ata.buf 0 512 = load d.image pos 512

structure Served (cb : BlkBackend) (d : BlkDisk) (pos : Nat) : Prop where
  readable : d.read = true
  inside : pos + 512 ≤ d.size.toNat
  near : pos + 512 < 2 ^ 63
  whole : cb.read (ofNat 64 pos) 512 = 512

theorem Served.served {pos : Nat} (serves : Served cb d pos) :
    d.served cb true (ofNat 64 pos) 512 = 512 := by
  have inside := serves.inside
  have position : (ofNat 64 pos).toNat = pos := by
    rw [toNat_ofNat]
    omega
  have below : ofNat 64 pos < d.size := by
    rw [lt_def]
    omega
  have count : (d.rvvmBlkRead cb 512 (ofNat 64 pos)).1.length = d.served cb true
    (ofNat 64 pos) 512 :=
    BlkDisk.rvvmBlkRead_counts 512
  rw [BlkDisk.rvvmBlkRead_readable 512 serves.readable below, min_eq_left (by omega), length_load,
    serves.whole] at count
  exact count.symm

theorem ataReadSector_reads {pos k : Nat} (serves : Served cb d pos)
    (disk : ata.blk = some { d with head := ofNat 64 pos }) (first : ata.drive = 0)
    (count : ata.sectcount = ofNat 16 k) : Reading d pos k (ataReadSector cb ata) := by
  have near := serves.near
  have position : (ofNat 64 pos).toNat = pos := by
    rw [toNat_ofNat]
    omega
  have answer : { d with head := ofNat 64 pos }.served cb true (ofNat 64 pos) 512 = 512 :=
    serves.served
  obtain ⟨bytes, after⟩ := BlkDisk.rvvmBlkReadHead_near cb (d := { d with head := ofNat 64 pos })
    (by dsimp only; omega : _ + 512 < 2 ^ 63)
  rw [answer, position] at bytes
  rw [answer, ← ofNat_add] at after
  have result : ataReadSector cb ata = ataSendInterrupt
      { ata with
        blk := some { d with head := ofNat 64 (pos + 512) }
        buf := store ata.buf 0 (load d.image pos 512)
        bytesToRw := ataSectorSize
        status := ataStatusRdy ||| ataStatusDrq } := by
    unfold ataReadSector readHead
    rw [disk]
    simp only [elim_some, ataSectorSize, bytes, after, length_load]
    rfl
  have whole : load (store ata.buf 0 (load d.image pos 512)) 0 512 = load d.image pos 512 := by
    have stored := load_store ata.buf 0 (load d.image pos 512)
    rwa [length_load] at stored
  rw [result]
  unfold ataSendInterrupt
  refine ⟨rfl, first, count, rfl, ?_⟩
  dsimp only
  exact whole

/-- What follows the last byte of a sector. -/
def sectorDone (cb : BlkBackend) (ata : AtaDev) : AtaDev :=
  let ata := { ata with bytesToRw := 0, sectcount := ata.sectcount - 1 }
  if ata.sectcount ≠ 0 then ataReadSector cb ata else { ata with status := ataStatusRdy }

theorem sum_sizes_pos {sizes : List OpSize} (some : sizes ≠ []) : 0 < (sizes.map fun size => size.1).sum := by
  cases sizes with
  | nil => exact absurd rfl some
  | cons size rest =>
    rw [map_cons, sum_cons]
    omega

theorem readAll_sector (cb : BlkBackend) {sizes : List OpSize} {ata : AtaDev} (valid : ataDriveValid ata = true)
    (left : (sizes.map fun size => size.1).sum = ata.bytesToRw) (some : sizes ≠ []) (fits : ata.bytesToRw ≤ 512) :
    readAll cb ata sizes = (load ata.buf (512 - ata.bytesToRw) ata.bytesToRw, sectorDone cb ata) := by
  induction sizes generalizing ata with
  | nil => exact absurd rfl some
  | cons size rest ih =>
    rw [map_cons, sum_cons] at left
    have accepted : takes ata size.1 = true := by
      unfold takes
      rw [valid]
      exact decide_eq_true ⟨by omega, fits⟩
    unfold readAll
    by_cases last : rest = []
    · have all : size.1 = ata.bytesToRw := by
        rw [last] at left
        exact left
      have done : ataDataRead cb ata (ataReg 0) size =
          (load ata.buf (512 - ata.bytesToRw) size.1, sectorDone cb ata) := by
        have zero : ata.bytesToRw - size.1 = 0 := by omega
        change ataDataPortRead cb ata size = _
        unfold ataDataPortRead sectorDone
        rw [if_pos accepted, zero]
        dsimp only
        rw [if_pos rfl]
        split <;> rfl
      rw [last, done]
      unfold readAll
      dsimp only
      rw [append_nil, all]
    · have positive' := sum_sizes_pos last
      have step : ataDataRead cb ata (ataReg 0) size =
          (load ata.buf (512 - ata.bytesToRw) size.1, { ata with bytesToRw := ata.bytesToRw - size.1 }) := by
        have more : ata.bytesToRw - size.1 ≠ 0 := by omega
        unfold ataDataRead ataDataPortRead
        simp [ataReg, accepted, if_neg more, ataSectorSize]
      rw [step]
      dsimp only
      rw [@ih { ata with bytesToRw := ata.bytesToRw - size.1 } valid (by dsimp only; omega) last
        (by dsimp only; omega)]
      have start : 512 - (ata.bytesToRw - size.1) = 512 - ata.bytesToRw + size.1 := by omega
      rw [start, ← load_add, Nat.add_sub_cancel' (by omega : size.1 ≤ ata.bytesToRw)]
      rfl

theorem readAll_append (ata : AtaDev) (xs ys : List OpSize) :
    readAll cb ata (xs ++ ys) =
      ((readAll cb ata xs).1 ++ (readAll cb (readAll cb ata xs).2 ys).1,
        (readAll cb (readAll cb ata xs).2 ys).2) := by
  induction xs generalizing ata with
  | nil => rfl
  | cons size rest ih =>
    simp [readAll, ih]

theorem readAll_sectors {sectors : List (List OpSize)} {pos : Nat} {ata : AtaDev}
    (full : ∀ sector ∈ sectors, (sector.map fun size => size.1).sum = 512) (few : sectors.length ≤ 256)
    (serves : ∀ k < sectors.length, Served cb d (pos + k * 512)) (reading : Reading d pos sectors.length ata)
    (some : sectors ≠ []) :
    (readAll cb ata sectors.flatten).1 = load d.image pos (sectors.length * 512) ∧
      imageOf (readAll cb ata sectors.flatten).2.blk = d.image := by
  induction sectors generalizing pos ata with
  | nil => exact absurd rfl some
  | cons sector rest ih =>
    have valid : ataDriveValid ata = true := ataDriveValid_first (by rw [reading.disk]; rfl) reading.first
    have whole : (sector.map fun size => size.1).sum = ata.bytesToRw := by
      rw [reading.bytes]
      exact full sector mem_cons_self
    have nonempty : sector ≠ [] := by
      rintro rfl
      rw [reading.bytes] at whole
      cases whole
    have delivered := readAll_sector cb valid whole nonempty reading.bytes.le
    rw [reading.bytes, reading.buf] at delivered
    rw [flatten_cons, readAll_append, delivered, length_cons, Nat.add_comm, Nat.add_mul, load_add]
    rw [length_cons] at few serves
    have count := reading.count
    rw [length_cons] at count
    have left : ata.sectcount - 1 = ofNat 16 rest.length := by
      rw [count]
      apply eq_of_toNat_eq
      rw [toNat_sub, toNat_ofNat, toNat_ofNat]
      change (2 ^ 16 - 1 + _) % 2 ^ 16 = _
      omega
    by_cases last : rest = []
    · have done : sectorDone cb ata = { ata with bytesToRw := 0, sectcount := 0, status := ataStatusRdy } := by
        unfold sectorDone
        rw [left, last]
        rfl
      rw [last, done]
      refine ⟨by simp only [flatten_nil, readAll, length_nil, Nat.zero_mul, load_zero], ?_⟩
      rw [reading.disk]
      rfl
    · have positive := length_pos_iff.mpr last
      have more : ata.sectcount - 1 ≠ 0 := by
        intro zero
        have value := congrArg BitVec.toNat (left.symm.trans zero)
        rw [toNat_ofNat] at value
        change _ = 0 at value
        omega
      have next : sectorDone cb ata =
          ataReadSector cb { ata with bytesToRw := 0, sectcount := ata.sectcount - 1 } := if_pos more
      have served : Served cb d (pos + 512) := by
        have second := serves 1 (by omega)
        rwa [Nat.one_mul] at second
      have reading' : Reading d (pos + 512) rest.length
          (ataReadSector cb { ata with bytesToRw := 0, sectcount := ata.sectcount - 1 }) :=
        ataReadSector_reads served reading.disk reading.first left
      rw [next]
      obtain ⟨bytes, image⟩ := ih (fun sector member => full sector (mem_cons_of_mem _ member)) (by omega)
        (fun k below => by
          have later := serves (k + 1) (by omega)
          rwa [Nat.add_mul, Nat.add_comm (k * 512), ← Nat.add_assoc] at later) reading' last
      exact ⟨by rw [bytes], image⟩

end Reading

section Transfers
variable {cb : BlkBackend} {ata : AtaDev} {d : BlkDisk}

theorem sectors_nsect {α : Type} {size : α → Nat} (s : Sectored α size) : sectors s.nsect = s.sectors.length := by
  have some := s.some
  have few := s.few
  have value : s.nsect.toNat = s.sectors.length % 256 := toNat_ofNat _ _
  unfold sectors
  split
  case isTrue zero =>
    rw [zero] at value
    change 0 = _ at value
    omega
  case isFalse positive =>
    have positive' : s.nsect.toNat ≠ 0 := fun zero => positive (eq_of_toNat_eq zero)
    omega

theorem seek_ofNat (lba : BitVec 28) : (lba.setWidth 64 <<< 9 : Addr) = ofNat 64 (lba.toNat * 512) := by
  apply eq_of_toNat_eq
  rw [seek_toNat, toNat_ofNat]
  omega

theorem ataPerformPioRw_seeks (present : ata.blk = some d) (lba : BitVec 28) (nsect : Byte) (write : Bool) :
    ataPerformPioRw cb (addressed ata lba nsect) write =
      let ata := { addressed ata lba nsect with blk := some { d with head := ofNat 64 (lba.toNat * 512) } }
      if write then ataWriteSector cb ata else ataReadSector cb ata := by
  change (if (seekHead ata.blk (lba.setWidth 64 <<< 9)).1 = true then
    if write = true then
      ataWriteSector cb { addressed ata lba nsect with blk := (seekHead ata.blk (lba.setWidth 64 <<< 9)).2 }
    else ataReadSector cb { addressed ata lba nsect with blk := (seekHead ata.blk (lba.setWidth 64 <<< 9)).2 }
    else _) = _
  rw [seekHead_lba present, seek_ofNat]
  rfl

theorem readSectors_lawful (lba : BitVec 28) (s : SectorReads) (safe : PioSafe ata (cb, .read lba s)) :
    PioLawful ata (cb, .read lba s) := by
  rintro ⟨d, present, inside⟩
  have few := s.few
  have some := s.some
  obtain ⟨readable, whole⟩ := safe d present
  have serves (k : Nat) (below : k < s.sectors.length) : Served cb d (lba.toNat * 512 + k * 512) := by
    have ends : (lba.toNat + k) * 512 + 512 ≤ d.size.toNat ∧ (lba.toNat + k) * 512 + 512 < 2 ^ 63 := by
      omega
    rw [← Nat.add_mul]
    exact ⟨readable, ends.1, ends.2, whole k below⟩
  have reading : Reading d (lba.toNat * 512) s.sectors.length
      (ataDataWrite cb (ataAddress lba s.nsect cb ata) (ataReg 7) (single 0x20)) := by
    rw [ataCommand_eq (by rw [present]; rfl)]
    change Reading _ _ _ (ataPerformPioRw cb (addressed ata lba s.nsect) false)
    rw [ataPerformPioRw_seeks present]
    have first := serves 0 some
    rw [Nat.add_zero] at first
    have count : (addressed ata lba s.nsect).sectcount = ofNat 16 s.sectors.length :=
      congrArg (ofNat 16) (sectors_nsect s)
    rw [if_neg nofun]
    exact ataReadSector_reads first rfl rfl count
  obtain ⟨bytes, image⟩ := readAll_sectors s.full few serves reading (length_pos_iff.mp some)
  have here : imageOf ata.blk = d.image := by rw [present]; rfl
  rw [here]
  exact ⟨bytes, image⟩

theorem writeAll_idle {ata : AtaDev} (idle : ata.bytesToRw = 0) (writes : List OpData) :
    writeAll cb ata writes = ata := by
  induction writes with
  | nil => rfl
  | cons data rest ih =>
    have refused : takes ata data.1.length = false := by
      unfold takes
      rw [decide_eq_false (fun fits => absurd fits.1 (by omega)), Bool.and_false]
    have same : ataDataWrite cb ata (ataReg 0) data = ata := by
      change ataDataPortWrite cb ata data.1 = ata
      unfold ataDataPortWrite
      rw [refused, if_neg nofun]
    unfold writeAll
    rw [same, ih]

theorem ataWriteSector_effect (cb : BlkBackend) (present : ata.blk = some d) :
    imageOf (ataWriteSector cb ata).blk =
        store d.image d.head.toNat (load ata.buf 0 (d.served cb false d.head 512)) ∧
      (ataWriteSector cb ata).bytesToRw = ata.bytesToRw := by
  have length : (load ata.buf 0 512).length = 512 := length_load _ _ _
  have image := BlkDisk.rvvmBlkWriteHead_image (d := d) cb
    (by rw [length]; decide : (load ata.buf 0 512).length < 2 ^ 64)
  have short := BlkDisk.served_le cb d false d.head 512
  rw [length, take_load, min_eq_left short] at image
  have effect : imageOf (writeHead cb ata.blk (load ata.buf 0 512)).2 =
      store d.image d.head.toNat (load ata.buf 0 (d.served cb false d.head 512)) := by
    rw [present]
    exact image
  unfold ataWriteSector
  dsimp only [ataSectorSize]
  split
  · exact ⟨effect, rfl⟩
  · exact ⟨effect, rfl⟩

theorem store_rest (image : Nat → Byte) (off len : Nat) (xs : List Byte) :
    store image off (xs ++ load image (off + xs.length) len) = store image off xs := by
  have same := store_load (store image off xs) (off + xs.length) len
  rwa [load_store_apart image (.inr (le_refl _)), store_append] at same

theorem writeSectors_lawful (lba : BitVec 28) (s : SectorWrites) (safe : PioSafe ata (cb, .write lba s)) :
    PioLawful ata (cb, .write lba s) := by
  rintro ⟨d, present, -⟩
  obtain ⟨idle, same⟩ := safe
  have position : (ofNat 64 (lba.toNat * 512)).toNat = lba.toNat * 512 := by
    rw [toNat_ofNat]
    omega
  have data := same d present
  rw [seek_ofNat] at data
  let ready := { addressed ata lba s.nsect with blk := some { d with head := ofNat 64 (lba.toNat * 512) } }
  obtain ⟨image, bytes⟩ := ataWriteSector_effect cb (rfl : ready.blk = some _)
  have command : ataDataWrite cb (ataAddress lba s.nsect cb ata) (ataReg 7) (single 0x30)
    = ataWriteSector cb ready := by
    rw [ataCommand_eq (by rw [present]; rfl)]
    change ataPerformPioRw cb (addressed ata lba s.nsect) true = _
    rw [ataPerformPioRw_seeks present]
    rfl
  have here : imageOf ata.blk = d.image := by rw [present]; rfl
  unfold writeSectors
  rw [command, writeAll_idle (bytes.trans idle), image, here, ← data]
  rw [position]
  have rest := store_rest d.image (lba.toNat * 512)
    (s.sectors.length * 512 - d.served cb false (ofNat 64 (lba.toNat * 512)) 512)
    (load ata.buf 0 (d.served cb false (ofNat 64 (lba.toNat * 512)) 512))
  rw [length_load] at rest
  exact rest.symm

theorem readHead_image (cb : BlkBackend) (blk : Option BlkDisk) (size : Nat) :
    imageOf (readHead cb blk size).2 = imageOf blk := by
  cases blk with
  | none => rfl
  | some d => exact BlkDisk.rvvmBlkReadHead_image cb size

theorem seekHead_image (blk : Option BlkDisk) (off : Addr) : imageOf (seekHead blk off).2 = imageOf blk := by
  cases blk with
  | none => rfl
  | some d => exact BlkDisk.rvvmBlkSeekHead_image off .set

theorem ataReadSector_image (cb : BlkBackend) (ata : AtaDev) :
    imageOf (ataReadSector cb ata).blk = imageOf ata.blk := by
  have same := readHead_image cb ata.blk ataSectorSize
  unfold ataReadSector
  dsimp only
  split
  · exact same
  · exact same

theorem ataWriteSector_keeps {ata : AtaDev} (keeps : BufKeeps cb ata.blk (fun d => d.head) ata.buf) :
    imageOf (ataWriteSector cb ata).blk = imageOf ata.blk := by
  cases present : ata.blk with
  | none =>
    have nothing : imageOf (writeHead cb ata.blk (load ata.buf 0 ataSectorSize)).2 = imageOf none := by
      rw [present]
      rfl
    unfold ataWriteSector
    dsimp only
    split
    · exact nothing
    · exact nothing
  | some d =>
    have stored := keeps d present
    have short := BlkDisk.served_le cb d false d.head 512
    unfold BlkKeeps at stored
    rw [length_load, take_load, min_eq_left short] at stored
    rw [(ataWriteSector_effect cb present).1, stored, store_load]
    rfl

theorem ataHandleCmd_image {ata : AtaDev} {cmd : AtaCmd}
    (keeps : cmd = .writeSectors → BufKeeps cb ata.blk (fun _ => ataGetSeek ata) ata.buf) :
    imageOf (ataHandleCmd cb ata cmd).blk = imageOf ata.blk := by
  have seek := seekHead_image ata.blk (ataGetSeek ata)
  have dma : imageOf (ataSeekDma ata).blk = imageOf ata.blk := by
    unfold ataSeekDma
    dsimp only
    split
    · exact seek
    · exact seek
  cases cmd with
  | readSectors =>
    change imageOf (ataPerformPioRw cb ata false).blk = _
    unfold ataPerformPioRw
    dsimp only
    split
    · rw [if_neg nofun, ataReadSector_image]
      exact seek
    · exact seek
  | writeSectors =>
    change imageOf (ataPerformPioRw cb ata true).blk = _
    unfold ataPerformPioRw
    dsimp only
    split
    case isTrue found =>
      rw [if_pos rfl, ataWriteSector_keeps]
      · exact seek
      · intro d' after
        cases present : ata.blk with
        | none =>
          rw [present] at found
          cases found
        | some d =>
          rw [present] at found after
          have moved : d' = { d with head := ataGetSeek ata } :=
            (some.inj after).symm.trans (BlkDisk.rvvmBlkSeekHead_found found)
          rw [moved]
          exact keeps rfl d present
    case isFalse => exact seek
  | devDiagnostic => rfl
  | readDma | writeDma => exact dma
  | checkPowerMode => rfl
  | identify => rfl
  | unknown => rfl

theorem access_lawful (access : PioAccess) (safe : PioSafe ata (cb, .access access)) :
    PioLawful ata (cb, .access access) := by
  cases access with
  | read offset size =>
    change imageOf (ataDataRead cb ata (ataReg offset) size).2.blk = _
    cases ataReg offset with
    | data =>
      change imageOf (ataDataPortRead cb ata size).2.blk = _
      unfold ataDataPortRead
      dsimp only
      split
      · split
        · split
          · exact ataReadSector_image cb _
          · rfl
        · rfl
      · rfl
    | _ => rfl
  | write offset data =>
    change imageOf (ataDataWrite cb ata (ataReg offset) data).blk = _
    obtain ⟨fills, commands⟩ := safe
    cases reg : ataReg offset with
    | data =>
      change imageOf (ataDataPortWrite cb ata data.1).blk = _
      unfold ataDataPortWrite
      dsimp only
      split
      case isTrue accepted =>
        split
        case isTrue zero =>
          have enough : ata.bytesToRw = data.1.length := by
            have fits := accepted
            rw [takes, Bool.and_eq_true, decide_eq_true_eq] at fits
            omega
          have keeps := fills reg accepted enough
          split
          · exact ataWriteSector_keeps keeps
          · exact ataWriteSector_keeps keeps
        case isFalse => rfl
      case isFalse => rfl
    | status =>
      change imageOf (if ataDriveValid ata = true then _ else ata).blk = _
      split
      case isTrue valid => exact ataHandleCmd_image (commands reg valid)
      case isFalse => rfl
    | _ => rfl
  | ctlRead offset => rfl
  | ctlWrite offset data =>
    change imageOf (ataCtlWrite ata offset data).blk = _
    unfold ataCtlWrite
    split <;> rfl

end Transfers

/-- Runs of transfers and accesses that keep to these conditions treat the disk as they should. -/
theorem pio_lawful_run (ata : AtaDev) (acts : List (BlkBackend × PioAct))
    (safe : AllSteps pioStep PioSafe ata acts) : AllSteps pioStep PioLawful ata acts := by
  have entailed (ata : AtaDev) (act : BlkBackend × PioAct) (safe : PioSafe ata act) : PioLawful ata act := by
    obtain ⟨cb, act⟩ := act
    cases act with
    | read lba s => exact readSectors_lawful lba s safe
    | write lba s => exact writeSectors_lawful lba s safe
    | access access => exact access_lawful access safe
  have always (ata : AtaDev) (act : BlkBackend × PioAct) (_ : True) (_ : PioSafe ata act) : True := trivial
  exact AllSteps.entails always (fun ata act _ => entailed ata act) trivial safe

def clearDrive : AtaDev := ataCreate (some ⟨true, true, false, 1024, 0, fun _ => 0⟩) []

def wordWrites (byte : Byte) : SectorWrites where
  sectors := [replicate 128 ⟨[byte, byte, byte, byte], .inr (.inr rfl)⟩]
  full := by
    intro sector member
    rw [mem_singleton.mp member]
    simp
  some := one_pos
  few := le_of_ble_eq_true rfl

/-- Three sectors, no two of them alike. -/
def stripe (n : Nat) : Byte := ofNat 8 (n + n / 512)

def stripedDrive : AtaDev := ataCreate (some ⟨true, true, false, 1536, 0, stripe⟩) []

def twoReads : SectorReads where
  sectors := replicate 2 (replicate 128 ⟨4, .inr (.inr rfl)⟩)
  full := by decide +kernel
  some := two_pos
  few := le_of_ble_eq_true rfl

def stripeWords (pos : Nat) : List OpData :=
  (range 128).map fun i => ⟨load stripe (pos + 4 * i) 4, .inr (.inr rfl)⟩

/-- The third sector, and the second. -/
def twoWrites : SectorWrites where
  sectors := [stripeWords 1024, stripeWords 512]
  full := by decide +kernel
  some := two_pos
  few := le_of_ble_eq_true rfl

/-- Two sectors are read. And with the third sector in the buffer, that sector and the second are written over
the first two. -/
theorem pio_lawful_run_striped :
    AllSteps pioStep PioLawful stripedDrive
        [(wholeBackend, .read 1 twoReads), (wholeBackend, .access (.read 7 ⟨1, .inl rfl⟩))] ∧
      AllSteps pioStep PioLawful { stripedDrive with buf := fun n => stripe (1024 + n) }
        [(wholeBackend, .write 0 twoWrites)] := by
  have reads : PioSafe stripedDrive (wholeBackend, .read 1 twoReads) := by
    intro d present
    rw [← some.inj present]
    exact ⟨rfl, fun _ _ => rfl⟩
  have writes : PioSafe { stripedDrive with buf := fun n => stripe (1024 + n) }
      (wholeBackend, .write 0 twoWrites) := by
    refine ⟨rfl, fun d present => ?_⟩
    rw [← some.inj present]
    decide +kernel
  exact ⟨pio_lawful_run _ _ ⟨reads, trivial, trivial⟩, pio_lawful_run _ _ ⟨writes, trivial⟩⟩

theorem accesses_keep (cb : BlkBackend) (accesses : List PioAccess) (ata : AtaDev)
    (lawful : AllSteps pioStep PioLawful ata (accesses.map fun access => (cb, .access access))) :
    imageOf (final pioStep ata (accesses.map fun access => (cb, .access access))).blk = imageOf ata.blk := by
  induction accesses generalizing ata with
  | nil => rfl
  | cons access rest ih => exact (ih _ lawful.2).trans lawful.1

/-- READ SECTORS for the first sector, and data written where it should be read. -/
def readThenWrite (byte : Byte) : List PioAccess :=
  .write 2 (single 1) :: .write 7 (single 0x20) ::
    replicate 128 (.write 0 ⟨[byte, byte, byte, byte], .inr (.inr rfl)⟩)

/-- Data written to a sector does not reach it, and data written after READ SECTORS reaches the next one. -/
theorem pio_loses_data :
    let accesses := (readThenWrite 1).map fun access => (wholeBackend, PioAct.access access)
    imageOf (writeSectors wholeBackend clearDrive 0 (wordWrites 1)).blk 0 = 0 ∧
      ¬ PioLawful clearDrive (wholeBackend, .write 0 (wordWrites 1)) ∧
      imageOf (final pioStep clearDrive accesses).blk 512 = 1 ∧
      ¬ AllSteps pioStep PioLawful clearDrive accesses := by
  intro accesses
  have lost : imageOf (writeSectors wholeBackend clearDrive 0 (wordWrites 1)).blk 0 = 0 := by decide +kernel
  have changed : imageOf (final pioStep clearDrive accesses).blk 512 = 1 := by decide +kernel
  refine ⟨lost, fun lawful => ?_, changed, fun lawful => ?_⟩
  · have stored := congrFun (lawful ⟨_, rfl, by decide⟩) 0
    exact absurd stored (by decide +kernel)
  · have kept := congrFun (accesses_keep wholeBackend (readThenWrite 1) clearDrive lawful) 512
    rw [show imageOf (final pioStep clearDrive ((readThenWrite 1).map _)).blk 512 = 1 from changed] at kept
    cases kept

end Rvvm.Ata
