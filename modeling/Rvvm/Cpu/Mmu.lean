import Rvvm.Cpu.Hart

/-! Address translation and the memory operations built on it: the page-table walk, the slow
path through the MMU, and the TLB-cached loads, stores and fetches. -/
namespace Rvvm
open List
open BitVec (ofNat)

variable {δ : Type}

def riscvPhysAccess (mem : GuestRam) (paddr : Addr) : Option Addr :=
  if mem.addr ≤ paddr ∧ paddr - mem.addr < mem.size then some (mem.data + (paddr - mem.addr))
  else none

/-! Access masks, in the bit positions of the page-table entry. -/

def Access.mask : Access → BitVec 64
  | .read => 0x2
  | .write => 0x4
  | .exec => 0x8

def debugAccess : BitVec 64 := 0xE

/-- Whether a page whose U bit does not fit the privilege may still be accessed. -/
def riscvMmuCheckPriv (csr : Csr) (priv : Priv) (access : BitVec 64) : Bool :=
  if access = debugAccess then true
  else if access = Access.exec.mask then false
  else decide (priv = .supervisor) && csr.sum

/-- What differs between the Sv32 walk and the 64-bit ones. Entries are handled zero-extended
to 64 bits; the Sv32 shifts stay in 32-bit arithmetic. -/
structure PteFormat where
  vpnBits : Nat
  vpnMask : Addr
  offShift : Nat
  physBits : Nat
  read : HostMem → Addr → BitVec 64
  pteShift : BitVec 64 → Addr
  nextTable : BitVec 64 → Addr
  bytes : Addr

def sv32Format : PteFormat where
  vpnBits := 10
  vpnMask := 0x3FF
  offShift := 2
  physBits := 34
  read := fun host p => (readUint32Le host p).setWidth 64
  pteShift := fun pte => (pte.setWidth 32 <<< 2).setWidth 64
  nextTable := fun pte => ((pte.setWidth 32 >>> 10) <<< 12).setWidth 64
  bytes := 4

def sv64Format : PteFormat where
  vpnBits := 9
  vpnMask := 0x1FF
  offShift := 3
  physBits := 56
  read := readUint64Le
  pteShift := fun pte => pte <<< 2
  nextTable := fun pte => ((pte >>> 10) <<< 12) &&& 0xFFFFFFFFFFFFFF#64
  bytes := 8

/-- The bytes of a word, least significant first. -/
def leByte (val : BitVec 64) (i : Addr) : Byte := (val >>> (8 * i.toNat)).setWidth 8

/-- The compare-and-swap that sets the accessed and dirty bits. -/
def PteFormat.update (fmt : PteFormat) (host : HostMem) (p : Addr) (pte : BitVec 64) : HostMem :=
  host.write p (leByte pte) fmt.bytes

def pteAd (pte access : BitVec 64) : BitVec 64 :=
  pte ||| 0x40#64 ||| ((access &&& 0x4#64) <<< 5)

/-- One walk in progress: the table it is at and the bit offset of the level. -/
structure Walk where
  pagetable : Addr
  bitOff : Nat

def PteFormat.pteAddr (fmt : PteFormat) (pos : Walk) (vaddr : Addr) : Addr :=
  pos.pagetable + (((vaddr >>> pos.bitOff) &&& fmt.vpnMask) <<< fmt.offShift)

inductive PteVerdict
  | fault
  | stay
  | descend (next : Walk)
  | leaf (paddr : Addr)

/-- The body of the level loop. An entry that is invalid, lacks the access or is a reserved
pointer leaves the walk where it is, so the remaining levels see the same entry. -/
def PteFormat.verdict (fmt : PteFormat) (csr : Csr) (priv : Priv) (access : BitVec 64) (vaddr : Addr)
    (pos : Walk) (pte : BitVec 64) : PteVerdict :=
  if pte &&& 0x1#64 = 0 then .stay
  else if pte &&& 0xA#64 ≠ 0 then
    if pte.getLsbD 4 == decide (priv ≠ .user) && !riscvMmuCheckPriv csr priv access then .fault
    else if pte &&& access = 0 then .stay
    else
      let vmask := bitMask pos.bitOff
      let pmask := bitMask (fmt.physBits - pos.bitOff) <<< pos.bitOff
      if fmt.pteShift pte &&& vmask &&& ~~~ 0xFFF#64 ≠ 0 then .fault
      else .leaf ((fmt.pteShift pte &&& pmask) ||| (vaddr &&& vmask))
  else if pte &&& Access.write.mask ≠ 0 then .stay
  else .descend ⟨fmt.nextTable pte, pos.bitOff - fmt.vpnBits⟩

/-- The level loop, with the accessed and dirty bits written back at the leaf. -/
def PteFormat.walk (fmt : PteFormat) (mem : GuestRam) (csr : Csr) (priv : Priv) (access : BitVec 64)
    (vaddr : Addr) : Nat → Walk → HostMem → Option Addr × HostMem
  | 0, _, host => (none, host)
  | levels + 1, pos, host =>
    match riscvPhysAccess mem (fmt.pteAddr pos vaddr) with
    | none => (none, host)
    | some p =>
      let pte := fmt.read host p
      match fmt.verdict csr priv access vaddr pos pte with
      | .fault => (none, host)
      | .stay => fmt.walk mem csr priv access vaddr levels pos host
      | .descend next => fmt.walk mem csr priv access vaddr levels next host
      | .leaf paddr =>
        (some paddr,
          if pte ≠ pteAd pte access then fmt.update host p (pteAd pte access) else host)

def riscvMmuTranslateSv32 (vm : Hart δ) (vaddr : Addr) (priv : Priv) (access : BitVec 64) :
    Option Addr × HostMem :=
  sv32Format.walk vm.mem vm.csr priv access vaddr 2 ⟨vm.rootPageTable, 22⟩ vm.host

def riscvMmuTranslateRv64 (vm : Hart δ) (vaddr : Addr) (priv : Priv) (access : BitVec 64)
    (svLevels : Nat) : Option Addr × HostMem :=
  let bitOff := svLevels * 9 + 12 - 9
  if vaddr ≠ signExtend64 vaddr (bitOff + 9) then (none, vm.host)
  else sv64Format.walk vm.mem vm.csr priv access vaddr svLevels ⟨vm.rootPageTable, bitOff⟩ vm.host

/-- The privilege an access is checked with: `MPRV` redirects all but instruction fetches. -/
def Hart.effectivePriv (vm : Hart δ) (access : BitVec 64) : Priv :=
  if vm.csr.mprv && access != Access.exec.mask then vm.csr.mpp else vm.privMode

/-- `MXR` lets reads use execute permission. -/
def Hart.effectiveAccess (vm : Hart δ) (access : BitVec 64) : BitVec 64 :=
  if vm.csr.mxr && access == Access.read.mask then access ||| Access.exec.mask else access

def riscvMmuTranslate (vm : Hart δ) (vaddr : Addr) (access : BitVec 64) : Option Addr × Hart δ :=
  let priv := vm.effectivePriv access
  let access := vm.effectiveAccess access
  if priv.code < Priv.machine.code then
    let (paddr, host) := match vm.mmuMode with
      | .bare => (some vaddr, vm.host)
      | .sv32 => riscvMmuTranslateSv32 vm vaddr priv access
      | .sv39 => riscvMmuTranslateRv64 vm vaddr priv access 3
      | .sv48 => riscvMmuTranslateRv64 vm vaddr priv access 4
      | .sv57 => riscvMmuTranslateRv64 vm vaddr priv access 5
    (paddr, { vm with host := host })
  else (some vaddr, vm)

/-- `memcpy` of `src` into a buffer at `off`. -/
def spliceAt (dst : List Byte) (off : Nat) (src : List Byte) : List Byte :=
  dst.take off ++ src ++ dst.drop (off + src.length)

/-- The loop of `riscv_mmio_unaligned_op`; every round moves at least one byte. -/
def mmioRealign (dev : MmioDev δ) (access : Access) (align : Nat) :
    Nat → Nat → Addr → Nat → Nat → List Byte → List Byte → δ → Bool × List Byte × δ
  | 0, _, _, _, _, _, data, devices => (true, data, devices)
  | fuel + 1, size, offsetAlign, offsetDiff, offsetDest, tmp, data, devices =>
    if size = 0 then (true, data, devices)
    else
      let sizeDest := if align - offsetDiff > size then size else align - offsetDiff
      let fetched := if access ≠ .write ∨ offsetDiff ≠ 0 ∨ sizeDest ≠ align then
          match dev.read with
          | none => (false, tmp, devices)
          | some read => read devices tmp offsetAlign align
        else (true, tmp, devices)
      match fetched with
      | (false, _, devices) => (false, data, devices)
      | (true, tmp, devices) =>
        let next := mmioRealign dev access align fuel (size - sizeDest)
          (offsetAlign + ofNat 64 align) 0 (offsetDest + sizeDest)
        if access = .write then
          let tmp := spliceAt tmp offsetDiff ((data.drop offsetDest).take sizeDest)
          match dev.write with
          | none => (false, data, devices)
          | some write =>
            match write devices tmp offsetAlign align with
            | (false, _, devices) => (false, data, devices)
            | (true, tmp, devices) => next tmp data devices
        else next tmp (spliceAt data offsetDest ((tmp.drop offsetDiff).take sizeDest)) devices

def riscvMmioUnalignedOp (dev : MmioDev δ) (devices : δ) (data : List Byte) (offset : Addr) (size : Nat)
    (access : Access) : Bool × List Byte × δ :=
  let align := if size < dev.minOpSize then dev.minOpSize
    else if size > dev.maxOpSize then dev.maxOpSize else size
  let offsetAlign := offset &&& ~~~ (ofNat 64 align - 1)
  if align > 16 then (false, data, devices)
  else mmioRealign dev access align size size offsetAlign (offset - offsetAlign).toNat 0
    (replicate 16 0) data devices

def MmioDev.contains (dev : MmioDev δ) (paddr : Addr) : Bool :=
  dev.addr ≤ paddr && paddr < dev.addr + dev.size

/-- The whole page of a physical address lies in the device region. -/
def MmioDev.holdsPage (dev : MmioDev δ) (paddr : Addr) : Bool :=
  let page := paddr &&& ~~~ 0xFFF#64
  dev.addr ≤ page && page + 0x1000#64 ≤ dev.addr + dev.size

def HostMem.store (host : HostMem) (p : Addr) (data : List Byte) : HostMem :=
  host.write p (fun i => data.getD i.toNat 0) (ofNat 64 data.length)

def HostMem.load (host : HostMem) (p : Addr) (size : Nat) : List Byte :=
  (range size).map fun i => host (p + ofNat 64 i)

/-- The callback part of `riscv_mmio_scan`, on the device that was found. -/
def riscvMmioCall (dev : MmioDev δ) (devices : δ) (data : List Byte) (offset : Addr) (size : Nat)
    (access : Access) : List Byte × δ :=
  match (if access = .write then dev.write else dev.read) with
  | some rwfunc =>
    if size ≤ dev.maxOpSize ∧ dev.minOpSize ≤ size ∧ offset &&& (ofNat 64 size - 1) = 0 then
      (rwfunc devices data offset size).2
    else (riscvMmioUnalignedOp dev devices data offset size access).2
  | none => (if dev.mapping.isNone then replicate size 0 else data, devices)

/-- `none` when no device claims the address; otherwise the buffer after the access. A device
with a direct mapping is cached in the TLB if it holds the whole page. -/
def riscvMmioScan (vm : Hart δ) (vaddr paddr : Addr) (data : List Byte) (access : Access) :
    Option (List Byte) × Hart δ :=
  match vm.mmioDevs.find? fun dev => dev.contains paddr with
  | none => (none, vm)
  | some dev =>
    let offset := paddr - dev.addr
    let (data, devices) := riscvMmioCall dev vm.devices data offset data.length access
    let vm := { vm with devices := devices }
    match dev.mapping with
    | none => (some data, vm)
    | some mapping =>
      let vm := if dev.holdsPage paddr then riscvTlbPut vm vaddr (mapping + offset) access else vm
      if access = .write then
        (some data, { vm with host := vm.host.store (mapping + offset) data })
      else (some (vm.host.load (mapping + offset) data.length), vm)

/-- The flags of `riscv_mmu_op_internal` other than `RISCV_MMU_ATTR_PHYS` and `..._PTR`; the
latter has its own function below. -/
structure MmuAttr where
  noTrap : Bool
  noProt : Bool
  deriving DecidableEq

def MmuAttr.plain : MmuAttr := ⟨false, false⟩

def Access.pagefault : Access → TrapCause
  | .read => .loadPagefault
  | .write => .storePagefault
  | .exec => .insnPagefault

def Access.physFault : Access → TrapCause
  | .read => .loadFault
  | .write => .storeFault
  | .exec => .insnFetch

def riscvMmuFault (vm : Hart δ) (cause : TrapCause) (vaddr : Addr) (attr : MmuAttr) : Hart δ :=
  if attr.noTrap then vm else riscvTrap vm cause vaddr

def riscvJitMarkDirty (vm : Hart δ) (addr size : Addr) : Hart δ :=
  { vm with pages := (riscvJitMarkDirtyMem vm.machine addr size).harts }

/-- An access to RAM through the pointer just translated, which also enters the TLB. -/
def riscvRamAccess (vm : Hart δ) (vaddr paddr ptr : Addr) (data : List Byte) (access : Access) :
    List Byte × Hart δ :=
  let vm := riscvTlbPut vm vaddr ptr access
  if access = .write then
    (data, riscvJitMarkDirty { vm with host := vm.host.store ptr data } paddr 8)
  else (vm.host.load ptr data.length, vm)

/-- `riscv_mmu_op_internal` on an access within one page; the buffer has the operation's size. -/
def riscvMmuOpPage (vm : Hart δ) (vaddr : Addr) (data : List Byte) (attr : MmuAttr) (access : Access) :
    Option (List Byte) × Hart δ :=
  match riscvMmuTranslate vm vaddr (if attr.noProt then debugAccess else access.mask) with
  | (none, vm) => (none, riscvMmuFault vm access.pagefault vaddr attr)
  | (some paddr, vm) =>
    match riscvPhysAccess vm.mem paddr with
    | some ptr =>
      let (data, vm) := riscvRamAccess vm vaddr paddr ptr data access
      (some data, vm)
    | none =>
      match riscvMmioScan vm vaddr paddr data access with
      | (some data, vm) => (some data, vm)
      | (none, vm) =>
        if paddr &&& ~~~ 0xFFFFFFFFFFFFFF#64 = 0 then (some (replicate data.length 0), vm)
        else (none, riscvMmuFault vm access.physFault vaddr attr)

def riscvBlockInPage (addr : Addr) (size : Nat) : Bool := (addr &&& 0xFFF#64).toNat + size ≤ 0x1000

/-- An access that crosses a page boundary is made in two parts, the second only if the first
succeeds. -/
def riscvMmuOp (vm : Hart δ) (vaddr : Addr) (data : List Byte) (attr : MmuAttr) (access : Access) :
    Option (List Byte) × Hart δ :=
  if riscvBlockInPage vaddr data.length then riscvMmuOpPage vm vaddr data attr access
  else
    let part := 0x1000 - (vaddr &&& 0xFFF#64).toNat
    match riscvMmuOpPage vm vaddr (data.take part) attr access with
    | (none, vm) => (none, vm)
    | (some first, vm) =>
      match riscvMmuOpPage vm (vaddr + ofNat 64 part) (data.drop part) attr access with
      | (none, vm) => (none, vm)
      | (some second, vm) => (some (first ++ second), vm)

/-- What `RISCV_MMU_ATTR_PTR` yields: host memory, or the bounce buffer of the caller. -/
inductive RmwPtr
  | host (ptr : Addr)
  | bounce (data : List Byte)

def Access.misalign : Access → TrapCause
  | .read => .loadMisalign
  | .write => .storeMisalign
  | .exec => .insnMisalign

/-- `riscv_mmu_op_internal` with `RISCV_MMU_ATTR_PTR`. Outside RAM the operand is read into the
bounce buffer, if there is one. -/
def riscvMmuPtrTranslate (vm : Hart δ) (vaddr : Addr) (size : Nat) (bounce : Bool) (access : Access) :
    Option RmwPtr × Hart δ :=
  if riscvBlockInPage vaddr size then
    match riscvMmuTranslate vm vaddr access.mask with
    | (none, vm) => (none, riscvMmuFault vm access.pagefault vaddr .plain)
    | (some paddr, vm) =>
      match riscvPhysAccess vm.mem paddr with
      | some ptr =>
        let vm := riscvTlbPut vm vaddr ptr access
        (some (.host ptr), if access = .write then riscvJitMarkDirty vm paddr 8 else vm)
      | none =>
        let scanned := if bounce then riscvMmioScan vm vaddr paddr (replicate size 0) .read
          else (none, vm)
        match scanned with
        | (some data, vm) => (some (.bounce data), vm)
        | (none, vm) =>
          if paddr &&& ~~~ 0xFFFFFFFFFFFFFF#64 = 0 then
            (if bounce then some (.bounce (replicate size 0)) else none, vm)
          else (none, riscvMmuFault vm access.physFault vaddr .plain)
  else (none, riscvMmuFault vm access.misalign vaddr .plain)

/-! Loads, stores and fetches through the TLB. -/

def Hart.tlbHit (vm : Hart δ) (vaddr : Addr) (access : Access) : Bool :=
  (vm.entry vaddr).tag access == vpn vaddr

/-- `riscv_ro_translate` for reads, `riscv_rmw_translate` for writes. -/
def riscvPtrTranslate (vm : Hart δ) (vaddr : Addr) (size : Nat) (bounce : Bool) (access : Access) :
    Option RmwPtr × Hart δ :=
  if vm.tlbHit vaddr access then (some (.host ((vm.entry vaddr).ptr + vaddr)), vm)
  else riscvMmuPtrTranslate vm vaddr size bounce access

/-- Writes the bounce buffer back to the device. Faults are ignored. -/
def riscvRmwMmioCommit (vm : Hart δ) (vaddr : Addr) (data : List Byte) : Hart δ :=
  (riscvMmuOp vm vaddr data ⟨true, false⟩ .write).2

def leNat : List Byte → Nat
  | [] => 0
  | b :: bs => b.toNat + 256 * leNat bs

def leWord (bytes : List Byte) : BitVec 64 := ofNat 64 (leNat bytes)

def wordBytes (val : BitVec 64) (size : Nat) : List Byte :=
  (range size).map fun i => leByte val (ofNat 64 i)

def vaddrAligned (vaddr : Addr) (size : Nat) : Bool := vaddr &&& (ofNat 64 size - 1) == 0

/-- The bytes a load yields: straight from the host on a hit, else through the slow path. -/
def riscvLoadBytes (vm : Hart δ) (vaddr : Addr) (size : Nat) : Option (List Byte) × Hart δ :=
  if vm.tlbHit vaddr .read && vaddrAligned vaddr size then
    (some (vm.host.load ((vm.entry vaddr).ptr + vaddr) size), vm)
  else riscvMmuOp vm vaddr (replicate size 0) .plain .read

def riscvStoreBytes (vm : Hart δ) (vaddr : Addr) (data : List Byte) : Hart δ :=
  if vm.tlbHit vaddr .write && vaddrAligned vaddr data.length then
    { vm with host := vm.host.store ((vm.entry vaddr).ptr + vaddr) data }
  else (riscvMmuOp vm vaddr data .plain .write).2

inductive LoadKind
  | u64 | u32 | s32 | u16 | s16 | u8 | s8
  deriving DecidableEq, Repr

namespace LoadKind

def size : LoadKind → Nat
  | u64 => 8
  | u32 | s32 => 4
  | u16 | s16 => 2
  | u8 | s8 => 1

def extend : LoadKind → BitVec 64 → BitVec 64
  | u64, x => x
  | u32, x => (x.setWidth 32).setWidth 64
  | s32, x => (x.setWidth 32).signExtend 64
  | u16, x => (x.setWidth 16).setWidth 64
  | s16, x => (x.setWidth 16).signExtend 64
  | u8, x => (x.setWidth 8).setWidth 64
  | s8, x => (x.setWidth 8).signExtend 64

end LoadKind

def riscvLoad (kind : LoadKind) (vm : Hart δ) (vaddr : Addr) (reg : BitVec 5) : Hart δ :=
  match riscvLoadBytes vm vaddr kind.size with
  | (some bytes, vm) => vm.writeReg reg (kind.extend (leWord bytes))
  | (none, vm) => vm

inductive StoreKind
  | u64 | u32 | u16 | u8
  deriving DecidableEq, Repr

def StoreKind.size : StoreKind → Nat
  | u64 => 8
  | u32 => 4
  | u16 => 2
  | u8 => 1

def riscvStore (kind : StoreKind) (vm : Hart δ) (vaddr : Addr) (reg : BitVec 5) : Hart δ :=
  riscvStoreBytes vm vaddr (wordBytes (vm.registers reg) kind.size)

def Hart.writeFpuReg (vm : Hart δ) (reg : BitVec 5) (data : BitVec 64) : Hart δ :=
  riscvFpuSetDirty { vm with fpuRegisters := Function.update vm.fpuRegisters reg data }

def riscvLoadDouble (vm : Hart δ) (vaddr : Addr) (reg : BitVec 5) : Hart δ :=
  match riscvLoadBytes vm vaddr 8 with
  | (some bytes, vm) => vm.writeFpuReg reg (leWord bytes)
  | (none, vm) => vm

/-- A single-precision value is boxed in ones. -/
def riscvLoadFloat (vm : Hart δ) (vaddr : Addr) (reg : BitVec 5) : Hart δ :=
  match riscvLoadBytes vm vaddr 4 with
  | (some bytes, vm) => vm.writeFpuReg reg (leWord bytes ||| 0xFFFFFFFF00000000#64)
  | (none, vm) => vm

def riscvStoreDouble (vm : Hart δ) (vaddr : Addr) (reg : BitVec 5) : Hart δ :=
  riscvStoreBytes vm vaddr (wordBytes (vm.fpuRegisters reg) 8)

def riscvStoreFloat (vm : Hart δ) (vaddr : Addr) (reg : BitVec 5) : Hart δ :=
  riscvStoreBytes vm vaddr (wordBytes (vm.fpuRegisters reg) 4)

def riscvFetchHalf (vm : Hart δ) (vaddr : Addr) : Option (List Byte) × Hart δ :=
  riscvMmuOp vm vaddr [0, 0] .plain .exec

/-- An instruction whose low bits are not both set is two bytes long. -/
def isLongInsn (bytes : List Byte) : Bool := bytes.getD 0 0 &&& 0x3#8 == 0x3#8

def riscvFetchSlow (vm : Hart δ) (vaddr : Addr) : Option (BitVec 32) × Hart δ :=
  match riscvFetchHalf vm vaddr with
  | (none, vm) => (none, vm)
  | (some low, vm) =>
    if isLongInsn low then
      match riscvFetchHalf vm (vaddr + 2) with
      | (none, vm) => (none, vm)
      | (some high, vm) => (some ((leWord (low ++ high)).setWidth 32), vm)
    else (some ((leWord low).setWidth 32), vm)

def riscvFetchInsn (vm : Hart δ) (vaddr : Addr) : Option (BitVec 32) × Hart δ :=
  if vm.tlbHit vaddr .exec then
    let low := vm.host.load ((vm.entry vaddr).ptr + vaddr) 2
    if isLongInsn low then
      if vm.tlbHit (vaddr + 2) .exec then
        let high := vm.host.load ((vm.entry (vaddr + 2)).ptr + vaddr + 2) 2
        (some ((leWord (low ++ high)).setWidth 32), vm)
      else riscvFetchSlow vm vaddr
    else (some ((leWord low).setWidth 32), vm)
  else riscvFetchSlow vm vaddr

end Rvvm
