import Rvvm.Machine.BlkHead
import Rvvm.Cpu.BitOps

/-! The ATA drive behind its PIO registers: one sector buffer, one byte counter and the drive head serve every
command. -/
namespace Rvvm.Ata
open BitVec Slices

abbrev OpSize := { size : Nat // size = 1 ∨ size = 2 ∨ size = 4 }

abbrev OpData := { data : List Byte // data.length = 1 ∨ data.length = 2 ∨ data.length = 4 }

/-- `ata_dev_t`. The registers set 28 bits of `lba`; `irqs` counts the interrupts sent. -/
structure AtaDev where
  blk : Option BlkDisk
  lba : BitVec 28
  prdtAddr : BitVec 32
  bmdmaCommand : BitVec 32
  bmdmaStatus : BitVec 32
  bytesToRw : Nat
  sectcount : BitVec 16
  drive : Byte
  error : Byte
  status : Byte
  buf : Nat → Byte
  serial : List Byte
  irqs : Nat

def ataSectorSize : Nat := 512

def ataErrorAmnf : Byte := 0x01
def ataErrorUnc : Byte := 0x40
def ataStatusErr : Byte := 0x01
def ataStatusDrq : Byte := 0x08
def ataStatusSrv : Byte := 0x10
def ataStatusRdy : Byte := 0x40

def ataDriveValid (ata : AtaDev) : Bool := ata.drive &&& 0x10 == 0 && ata.blk.isSome

def ataSendInterrupt (ata : AtaDev) : AtaDev := { ata with irqs := ata.irqs + 1 }

def ataReportError (ata : AtaDev) (error : Byte) : AtaDev :=
  { ata with error := ata.error ||| error, status := ataStatusErr }

def ataGetSeek (ata : AtaDev) : Addr := ata.lba.setWidth 64 <<< 9

/-! The block device may be missing; its calls then fail. -/

section Blk
variable (cb : BlkBackend) (blk : Option BlkDisk)

def readHead (size : Nat) : List Byte × Option BlkDisk :=
  blk.elim ([], none) fun d => ((rvvmBlkReadHead cb d size).1, some (rvvmBlkReadHead cb d size).2.2)

def writeHead (src : List Byte) : Nat × Option BlkDisk :=
  blk.elim (0, none) fun d => ((rvvmBlkWriteHead cb d src).1, some (rvvmBlkWriteHead cb d src).2.2)

def seekHead (off : Addr) : Bool × Option BlkDisk :=
  blk.elim (false, none) fun d => ((rvvmBlkSeekHead d off .set).1, some (rvvmBlkSeekHead d off .set).2)

end Blk

def imageOf (blk : Option BlkDisk) : Nat → Byte := blk.elim (fun _ => 0) fun d => d.image

def writeUint16Le (buf : Nat → Byte) (off : Nat) (val : BitVec 64) : Nat → Byte :=
  store buf off [val.setWidth 8, (val >>> 8).setWidth 8]

/-- Each pair of bytes is swapped; the rest is blank. -/
def ataCopyIdString (buf : Nat → Byte) (off : Nat) (str : List Byte) (size : Nat) : Nat → Byte :=
  ((str.take size).zipIdx).foldl (fun buf (c, i) => store buf (off + (i ^^^ 1)) [c])
    (store buf off (List.replicate size 0x20))

/-- The words of the sector that do not depend on the drive. -/
def identifyWords : List (Nat × BitVec 64) :=
  [(0, 0x40), (2, 0xFFFF), (6, 0x10), (12, 0x3F), (44, 0x4), (98, 0x300), (100, 0x4000), (102, 0x400), (106, 0x7),
    (108, 0xFFFF), (110, 0x10), (112, 0x3F), (128, 0x3), (134, 0x1), (136, 0x1), (160, 0x100), (176, 0x80FF)]

def identifySector (size : BitVec 64) (serial : List Byte) : Nat → Byte :=
  let capacity := [(114, size >>> 9), (116, size >>> 25), (120, size >>> 9), (122, size >>> 25)]
  let buf := (identifyWords ++ capacity).foldl (fun buf (off, val) => writeUint16Le buf off val) fun _ => 0
  let buf := ataCopyIdString buf 20 serial 20
  let buf := ataCopyIdString buf 46 [0x52, 0x31, 0x38, 0x34, 0x37] 8
  ataCopyIdString buf 54 [0x53, 0x41, 0x54, 0x41, 0x20, 0x48, 0x44, 0x44] 40

def ataCmdIdentify (ata : AtaDev) : AtaDev :=
  ataSendInterrupt
    { ata with
      buf := identifySector (ata.blk.elim 0 fun d => d.size) ata.serial
      bytesToRw := ataSectorSize
      status := ataStatusRdy ||| ataStatusSrv ||| ataStatusDrq
      sectcount := 1 }

section Commands
variable (cb : BlkBackend) (ata : AtaDev)

def ataReadSector : AtaDev :=
  let (bytes, blk) := readHead cb ata.blk ataSectorSize
  let ata := { ata with blk, buf := store ata.buf 0 bytes }
  if bytes.length ≠ 0 then
    ataSendInterrupt { ata with bytesToRw := ataSectorSize, status := ataStatusRdy ||| ataStatusDrq }
  else ataReportError ata ataErrorUnc

def ataWriteSector : AtaDev :=
  let (ret, blk) := writeHead cb ata.blk (load ata.buf 0 ataSectorSize)
  let ata := { ata with blk }
  if ret ≠ 0 then ataSendInterrupt ata else ataReportError ata ataErrorUnc

def ataPerformPioRw (write : Bool) : AtaDev :=
  let (found, blk) := seekHead ata.blk (ataGetSeek ata)
  let ata := { ata with blk }
  if found then if write then ataWriteSector cb ata else ataReadSector cb ata
  else ataReportError ata ataErrorUnc

/-- READ DMA and WRITE DMA only seek. -/
def ataSeekDma : AtaDev :=
  let (found, blk) := seekHead ata.blk (ataGetSeek ata)
  let ata := { ata with blk }
  if found then ataSendInterrupt ata else ataReportError ata ataErrorUnc

def ataDeviceDiagnostic : AtaDev :=
  { ata with lba := 0x01, sectcount := 0x01, error := 0x01, status := ataStatusRdy }

inductive AtaCmd
  | readSectors | writeSectors | devDiagnostic | readDma | writeDma | checkPowerMode | identify | unknown
  deriving DecidableEq

def ataCmd (cmd : Byte) : AtaCmd :=
  if cmd = 0x20 then .readSectors
  else if cmd = 0x30 then .writeSectors
  else if cmd = 0x90 then .devDiagnostic
  else if cmd = 0xC8 then .readDma
  else if cmd = 0xCA then .writeDma
  else if cmd = 0xE4 then .checkPowerMode
  else if cmd = 0xEC then .identify
  else .unknown

def ataHandleCmd : AtaCmd → AtaDev
  | .readSectors => ataPerformPioRw cb ata false
  | .writeSectors => ataPerformPioRw cb ata true
  | .readDma | .writeDma => ataSeekDma ata
  | .checkPowerMode => ataSendInterrupt { ata with sectcount := 0xFF }
  | .identify => ataCmdIdentify ata
  | .devDiagnostic => ataDeviceDiagnostic ata
  | .unknown => ataSendInterrupt ata

end Commands

inductive AtaReg
  | data | error | nsect | lbal | lbam | lbah | device | status | none
  deriving DecidableEq

def ataReg : Nat → AtaReg
  | 0x00 => .data
  | 0x01 => .error
  | 0x02 => .nsect
  | 0x03 => .lbal
  | 0x04 => .lbam
  | 0x05 => .lbah
  | 0x06 => .device
  | 0x07 => .status
  | _ => .none

section Registers
variable (cb : BlkBackend) (ata : AtaDev)

/-- The byte `write_uint8` leaves in a cleared buffer. -/
def padded (size : OpSize) (val : Byte) : List Byte := val :: List.replicate (size.1 - 1) 0

/-- The data register takes an access of `size` bytes. -/
def takes (size : Nat) : Bool := ataDriveValid ata && decide (ata.bytesToRw ≥ size ∧ ata.bytesToRw ≤ ataSectorSize)

def ataDataPortRead (size : OpSize) : List Byte × AtaDev :=
  if takes ata size.1 then
    let data := load ata.buf (ataSectorSize - ata.bytesToRw) size.1
    let ata := { ata with bytesToRw := ata.bytesToRw - size.1 }
    if ata.bytesToRw = 0 then
      let ata := { ata with sectcount := ata.sectcount - 1 }
      if ata.sectcount ≠ 0 then (data, ataReadSector cb ata) else (data, { ata with status := ataStatusRdy })
    else (data, ata)
  else (List.replicate size.1 0, ata)

def ataDataRead (reg : AtaReg) (size : OpSize) : List Byte × AtaDev :=
  match reg with
  | .data => ataDataPortRead cb ata size
  | .error => (if ataDriveValid ata then padded size ata.error else padded size 0, ata)
  | .nsect => (padded size (ata.sectcount.setWidth 8), ata)
  | .lbal => (padded size (ata.lba.setWidth 8), ata)
  | .lbam => (padded size ((ata.lba >>> 8).setWidth 8), ata)
  | .lbah => (padded size ((ata.lba >>> 16).setWidth 8), ata)
  | .device => (padded size (ata.drive ||| 0xE0 ||| (bitCut (ata.lba.setWidth 64) 24 4).setWidth 8), ata)
  | .status => (if ataDriveValid ata then padded size ata.status else padded size 0, ata)
  | .none => (padded size 0, ata)

def ataDataPortWrite (data : List Byte) : AtaDev :=
  if takes ata data.length then
    let ata :=
      { ata with
        buf := store ata.buf (ataSectorSize - ata.bytesToRw) data
        bytesToRw := ata.bytesToRw - data.length }
    if ata.bytesToRw = 0 then
      let ata := { ata with sectcount := ata.sectcount - 1 }
      let ata := if ata.sectcount ≠ 0 then
          { ata with status := ataStatusRdy ||| ataStatusDrq, bytesToRw := ataSectorSize }
        else ata
      ataWriteSector cb ata
    else ata
  else ata

/-- `bit_replace` on the address registers. -/
def replaceLba (pos bits : Nat) (field : Byte) : AtaDev :=
  { ata with lba := (bitReplace (ata.lba.setWidth 64) pos bits (field.setWidth 64)).setWidth 28 }

def ataDataWrite (reg : AtaReg) (data : OpData) : AtaDev :=
  let byte := data.1.headD 0
  match reg with
  | .data => ataDataPortWrite cb ata data.1
  | .nsect => { ata with sectcount := if byte = 0 then 256 else byte.setWidth 16 }
  | .lbal => replaceLba ata 0 8 byte
  | .lbam => replaceLba ata 8 8 byte
  | .lbah => replaceLba ata 16 8 byte
  | .device => replaceLba { ata with drive := byte &&& 0x10 } 24 4 (byte &&& 0xF)
  | .status =>
    if ataDriveValid ata then ataHandleCmd cb { ata with error := 0, status := ataStatusRdy } (ataCmd byte)
    else ata
  | .error | .none => ata

def ataCtlRead (offset : Nat) : Byte := if offset = 0 ∧ ataDriveValid ata then ata.status else 0

def ataCtlWrite (offset : Nat) (data : Byte) : AtaDev :=
  if offset = 0 ∧ ataDriveValid ata ∧ data.getLsbD 2 then
    { ata with
      bytesToRw := 0
      lba := 1
      sectcount := 1
      drive := 0
      error := ataErrorAmnf
      status := ataStatusRdy ||| ataStatusSrv }
  else ata

end Registers

/-- `ata_create`, on a drive that is opened or missing. -/
def ataCreate (blk : Option BlkDisk) (serial : List Byte) : AtaDev :=
  ⟨blk, 0, 0, 0, 0, 0, 0, 0, 0, 0, fun _ => 0, serial, 0⟩

/-! How a guest asks for `n` sectors at `lba`. -/

section Programming
variable (lba : BitVec 28) (nsect : Byte)

/-- Zero stands for 256 sectors. -/
def sectors : Nat := if nsect = 0 then 256 else nsect.toNat

def single (byte : Byte) : OpData := ⟨[byte], .inl rfl⟩

/-- The register writes that name the sectors; the drive selected is the first one. -/
def ataAddress (cb : BlkBackend) (ata : AtaDev) : AtaDev :=
  let ata := ataDataWrite cb ata (ataReg 2) (single nsect)
  let ata := ataDataWrite cb ata (ataReg 3) (single (lba.setWidth 8))
  let ata := ataDataWrite cb ata (ataReg 4) (single ((lba >>> 8).setWidth 8))
  let ata := ataDataWrite cb ata (ataReg 5) (single ((lba >>> 16).setWidth 8))
  ataDataWrite cb ata (ataReg 6) (single (0xE0 ||| (lba >>> 24).setWidth 8))

end Programming

section Programmed
variable {cb : BlkBackend} {ata : AtaDev}

theorem getLsbD_replaceLba (pos bits : Nat) (field : Byte) {i : Nat} (below : i < 28) :
    (replaceLba ata pos bits field).lba.getLsbD i =
      if pos ≤ i ∧ i < pos + bits then field.getLsbD (i - pos) else ata.lba.getLsbD i := by
  have inside : i < 64 := by omega
  unfold replaceLba
  rw [getLsbD_setWidth, decide_eq_true below, Bool.true_and, getLsbD_bitReplace _ _ _ _ _ inside]
  split
  · rw [getLsbD_setWidth, decide_eq_true (by omega), Bool.true_and]
  · rw [getLsbD_setWidth, decide_eq_true inside, Bool.true_and]

theorem getLsbD_lbaByte (lba : BitVec 28) {pos i : Nat} (above : pos ≤ i) (near : i < pos + 8) :
    ((lba >>> pos).setWidth 8).getLsbD (i - pos) = lba.getLsbD i := by
  rw [getLsbD_setWidth, decide_eq_true (by omega), Bool.true_and, getLsbD_ushiftRight,
    Nat.add_sub_cancel' above]

theorem sectors_toNat (nsect : Byte) :
    (if nsect = 0 then 256 else nsect.setWidth 16 : BitVec 16) = BitVec.ofNat 16 (sectors nsect) := by
  unfold sectors
  split
  · rfl
  · apply eq_of_toNat_eq
    rw [toNat_setWidth, toNat_ofNat]

theorem sectors_pos (nsect : Byte) : 0 < sectors nsect ∧ sectors nsect ≤ 256 := by
  unfold sectors
  split
  case isTrue => decide
  case isFalse some =>
    have positive : nsect.toNat ≠ 0 := fun zero => some (eq_of_toNat_eq zero)
    omega

theorem selects_first (lba : BitVec 28) : (0xE0#8 ||| (lba >>> 24).setWidth 8) &&& 0x10#8 = 0#8 := by
  ext i inside
  interval_cases i <;> simp

theorem getLsbD_highNibble (lba : BitVec 28) {i : Nat} (above : 24 ≤ i) (below : i < 28) :
    ((0xE0#8 ||| (lba >>> 24).setWidth 8) &&& 0xF#8).getLsbD (i - 24) = lba.getLsbD i := by
  interval_cases i <;> simp

theorem ataAddress_eq (lba : BitVec 28) (nsect : Byte) :
    ataAddress lba nsect cb ata =
      { ata with lba := lba, sectcount := BitVec.ofNat 16 (sectors nsect), drive := 0 } := by
  have registers : (ataAddress lba nsect cb ata).lba =
      (replaceLba (replaceLba (replaceLba (replaceLba ata 0 8 (lba.setWidth 8)) 8 8 ((lba >>> 8).setWidth 8))
        16 8 ((lba >>> 16).setWidth 8)) 24 4 ((0xE0#8 ||| (lba >>> 24).setWidth 8) &&& 0xF#8)).lba := rfl
  have address : (ataAddress lba nsect cb ata).lba = lba := by
    rw [registers]
    apply BitVec.eq_of_getLsbD_eq
    intro i below
    rw [getLsbD_replaceLba 24 4 _ below]
    split
    case isTrue inside => exact getLsbD_highNibble lba inside.1 below
    case isFalse outside =>
      rw [getLsbD_replaceLba 16 8 _ below]
      split
      case isTrue inside => exact getLsbD_lbaByte lba inside.1 inside.2
      case isFalse outside' =>
        rw [getLsbD_replaceLba 8 8 _ below]
        split
        case isTrue inside => exact getLsbD_lbaByte lba inside.1 inside.2
        case isFalse outside'' =>
          have first : i < 0 + 8 := by omega
          have byte := getLsbD_lbaByte lba (Nat.zero_le i) first
          rw [BitVec.ushiftRight_zero] at byte
          rw [getLsbD_replaceLba 0 8 _ below, if_pos ⟨Nat.zero_le i, first⟩, byte]
  calc ataAddress lba nsect cb ata
    _ = { ata with
          lba := (ataAddress lba nsect cb ata).lba
          sectcount := if nsect = 0 then 256 else nsect.setWidth 16
          drive := (0xE0#8 ||| (lba >>> 24).setWidth 8) &&& 0x10#8 } := rfl
    _ = _ := by rw [address, sectors_toNat, selects_first]; rfl

theorem seek_toNat (lba : BitVec 28) : (lba.setWidth 64 <<< 9).toNat = lba.toNat * 512 := by
  rw [toNat_shiftLeft, toNat_setWidth]
  omega

theorem seekHead_lba {blk : Option BlkDisk} {d : BlkDisk} (present : blk = some d) (lba : BitVec 28) :
    seekHead blk (lba.setWidth 64 <<< 9) = (true, some { d with head := lba.setWidth 64 <<< 9 }) := by
  unfold seekHead
  rw [present, Option.elim_some, BlkDisk.rvvmBlkSeekHead_set _ (by rw [seek_toNat]; omega)]

def addressed (ata : AtaDev) (lba : BitVec 28) (nsect : Byte) : AtaDev :=
  { ata with
    lba := lba
    sectcount := BitVec.ofNat 16 (sectors nsect)
    drive := 0
    error := 0
    status := ataStatusRdy }

theorem ataDriveValid_first {ata : AtaDev} (present : ata.blk.isSome = true) (first : ata.drive = 0) :
    ataDriveValid ata = true := by
  unfold ataDriveValid
  rw [present, first]
  decide

theorem ataCommand_eq (present : ata.blk.isSome = true) (lba : BitVec 28) (nsect cmd : Byte) :
    ataDataWrite cb (ataAddress lba nsect cb ata) (ataReg 7) (single cmd) =
      ataHandleCmd cb (addressed ata lba nsect) (ataCmd cmd) := by
  have valid : ataDriveValid { ata with lba, sectcount := BitVec.ofNat 16 (sectors nsect), drive := 0 } = true :=
    ataDriveValid_first present rfl
  rw [ataAddress_eq]
  exact if_pos valid

end Programmed

end Rvvm.Ata
