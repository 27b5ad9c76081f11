import Rvvm.Cpu.MmioCalls

/-! The list of MMIO regions of a machine. A region is known by the pointer it was allocated at;
beside the list, the state records which devices had their remove callback run. -/
namespace Rvvm.Mmio

/-- What `data` of a region points to: a device of its own, or the PCI function it belongs to. -/
inductive MmioData
  | device (id : Nat)
  | func (handle : Nat)
deriving DecidableEq

/-- `rvvm_mmio_dev_t`, as a description or as attached. -/
structure MmioDesc where
  addr : Addr
  size : Addr
  data : Option MmioData
  minOpSize : Nat
  maxOpSize : Nat
deriving DecidableEq

/-- The device that the remove callback of a region releases. -/
def MmioDesc.device (dev : MmioDesc) : Option Nat :=
  match dev.data with
  | some (.device id) => some id
  | _ => none

structure Region where
  handle : Nat
  dev : MmioDesc
deriving DecidableEq

/-- The part of `rvvm_machine_t` that region management works on. Allocations are numbered from
`next`; `freed` lists the function structures that were freed. -/
structure MmioSpace where
  mem : RvvmRam
  devs : List Region
  next : Nat
  removed : List Nat
  freed : List Nat

def rvvmCleanupMmioDesc (s : MmioSpace) (dev : MmioDesc) : MmioSpace :=
  { s with removed := s.removed ++ dev.device.toList }

/-- One round of the search: where to go on, if the zone is taken. -/
def rvvmMmioZoneNext (s : MmioSpace) (addr size : Addr) : Option Addr :=
  if rvvmMmioOverlapCheck addr size s.mem.addr s.mem.size then
    some ((s.mem.addr + s.mem.size + 0xFFF) &&& ~~~ 0xFFF)
  else
    (s.devs.find? fun region => rvvmMmioOverlapCheck addr size region.dev.addr region.dev.size).map
      fun region => (region.dev.addr + region.dev.size + 0xFFF) &&& ~~~ 0xFFF

/-- The search loop, cut off after a number of rounds: `none` when it has not ended by then. -/
def rvvmMmioZoneSearch (s : MmioSpace) (size : Addr) : Nat → Addr → Option Addr
  | 0, _ => none
  | rounds + 1, addr =>
    match rvvmMmioZoneNext s addr size with
    | none => some addr
    | some moved => rvvmMmioZoneSearch s size rounds moved

def rvvmMmioZoneAuto (rounds : Nat) (s : MmioSpace) (addr size : Addr) : Option Addr :=
  if size = 0 then some addr else rvvmMmioZoneSearch s size rounds addr

/-- Access sizes are powers of two, by default 1 to 8 bytes. -/
def MmioDesc.normalize (desc : MmioDesc) : MmioDesc :=
  { desc with minOpSize := opSizeOr desc.minOpSize 1, maxOpSize := opSizeOr desc.maxOpSize 8 }

/-- `rvvm_attach_mmio`: the region, or null after freeing what was described. -/
def rvvmAttachMmio (rounds : Nat) (s : MmioSpace) (desc : MmioDesc) : Option (MmioSpace × Option Region) :=
  let dev := desc.normalize
  let s := { s with next := s.next + 1 }
  if dev.minOpSize > dev.maxOpSize ∨ dev.minOpSize > 8 then some (rvvmCleanupMmioDesc s dev, none)
  else
    match rvvmMmioZoneAuto rounds s dev.addr dev.size with
    | none => none
    | some addr =>
      if addr ≠ dev.addr then some (rvvmCleanupMmioDesc s dev, none)
      else
        let region : Region := ⟨s.next - 1, dev⟩
        some ({ s with devs := s.devs ++ [region] }, some region)

def rvvmRemoveMmio (s : MmioSpace) (region : Option Region) : MmioSpace :=
  match region with
  | none => s
  | some region =>
    rvvmCleanupMmioDesc { s with devs := s.devs.filter fun other => other.handle ≠ region.handle } region.dev

/-! What attaching can do. -/

variable {rounds : Nat} {s s' t : MmioSpace} {desc : MmioDesc}

structure Attaches (s s' : MmioSpace) (desc : MmioDesc) (region : Region) : Prop where
  handle : region.handle = s.next
  data : region.dev.data = desc.data
  after : s' = { s with devs := s.devs ++ [region], next := s.next + 1 }

/-- The described device was released and the list is as before. -/
def Refuses (s s' : MmioSpace) (desc : MmioDesc) : Prop :=
  s' = { s with removed := s.removed ++ desc.device.toList, next := s.next + 1 }

theorem rvvmAttachMmio_cases {region : Option Region}
    (result : rvvmAttachMmio rounds s desc = some (s', region)) :
    region.elim (Refuses s s' desc) fun own => Attaches s s' desc own ∧ own.dev = desc.normalize ∧
      rvvmMmioZoneAuto rounds { s with next := s.next + 1 } desc.addr desc.size = some desc.addr := by
  unfold rvvmAttachMmio at result
  dsimp only at result
  split at result
  · cases result
    rfl
  · split at result
    · cases result
    next addr zone =>
      split at result
      · cases result
        rfl
      next kept =>
        cases result
        exact ⟨⟨rfl, rfl, rfl⟩, rfl, zone.trans (congrArg some (not_not.mp kept))⟩

end Rvvm.Mmio
