import Rvvm.Machine.Ram
import Rvvm.Machine.Blk
import Rvvm.Library.Align

/-! The data path of the NVMe controller: the walk over Physical Region Pages (PRPs)
and the READ and WRITE commands built on it. -/
namespace Rvvm.Nvme

/-- A PCI function: its command register and the machine its bus belongs to. -/
structure PciFunc where
  machine : RvvmMachine
  command : BitVec 32

def PciFunc.busMaster (f : PciFunc) : Bool := f.command &&& 0x4 != 0

def pciGetDmaPtr (f : PciFunc) (addr : Addr) (size : Nat) : Option Addr :=
  if f.busMaster then (rvvmGetDmaPtr f.machine addr (BitVec.ofNat 64 size)).1 else none

def nvmePageSize : Nat := 4096
def nvmePageMask : Addr := 0xFFF

/-- `nvme_prp_ctx_t`. -/
structure PrpCtx where
  prp1 : Addr
  prp2 : Addr
  size : Nat
  cur : Nat

def nvmePrpAvail (prp : PrpCtx) : Nat := prp.size - prp.cur

def lastSlot (prp2 : Addr) : Bool := (prp2 + 8) &&& nvmePageMask == 0

theorem and_pageMask_toNat (a : Addr) : (a &&& nvmePageMask).toNat = a.toNat % 4096 := by
  exact Nat.and_two_pow_sub_one_eq_mod a.toNat 12

theorem and_not_pageMask_mod (a : Addr) : (a &&& ~~~ nvmePageMask).toNat % 4096 = 0 := by
  rw [Align.toNat_and_not, and_pageMask_toNat]
  omega

theorem lastSlot_iff (a : Addr) : lastSlot a = true ↔ a.toNat % 4096 = 4088 := by
  have sum : ((a + 8) &&& nvmePageMask).toNat = (a.toNat + 8) % 2 ^ 64 % 4096 := by
    rw [and_pageMask_toNat]
    rfl
  rw [lastSlot, beq_iff_eq, ← BitVec.toNat_inj]
  have zero : (0 : Addr).toNat = 0 := rfl
  omega

theorem lastSlot_page (a : Addr) : lastSlot (a &&& ~~~ nvmePageMask) = false := by
  have start := and_not_pageMask_mod a
  rw [← Bool.not_eq_true, lastSlot_iff]
  omega

set_option linter.unusedVariables false in
/-- The list loop of `nvme_parse_prp_region` from `len` bytes on: the length of the
region and the context it leaves. -/
def prpListLoop (f : PciFunc) (prp : PrpCtx) (prp2 : Addr) (dma : Option Addr) (len : Nat) :
    Nat × PrpCtx :=
  if below : len < nvmePrpAvail prp then
    match dma.or (pciGetDmaPtr f (prp2 &&& ~~~ nvmePageMask) nvmePageSize) with
    | none => (len, prp)
    | some dma =>
      if chains : lastSlot prp2 = true ∧ len + nvmePageSize < nvmePrpAvail prp then
        -- Fetch the next list in the chain.
        let next := readUint64Le f.machine.host (dma + 0xFF8) &&& ~~~ nvmePageMask
        prpListLoop f prp next none len
      else
        let page := readUint64Le f.machine.host (dma + (prp2 &&& nvmePageMask))
        if page ≠ prp.prp1 + BitVec.ofNat 64 len then
          (len, { prp with prp1 := page, prp2 := prp2 + 8 })
        else prpListLoop f prp (prp2 + 8) (some dma) (len + nvmePageSize)
  else (len, prp)
termination_by 2 * (nvmePrpAvail prp - len) + (lastSlot prp2).toNat
decreasing_by
  · simp only [lastSlot_page, chains.1, Bool.toNat_false, Bool.toNat_true]
    omega
  · have small := Bool.toNat_le (lastSlot (prp2 + 8))
    simp only [nvmePageSize]
    omega

def firstLength (prp1 : Addr) : Nat := nvmePageSize - (prp1 &&& nvmePageMask).toNat

/-- The value of `len` when the list loop starts. -/
def startLength (prp : PrpCtx) : Nat :=
  if prp.cur = 0 then firstLength prp.prp1 else nvmePageSize

def nvmeParsePrpRegion (f : PciFunc) (prp : PrpCtx) : Nat × PrpCtx :=
  let len := firstLength prp.prp1
  if prp.cur = 0 ∧ prp.size ≤ len then (prp.size, prp)
  else if prp.cur = 0 ∧ prp.size ≤ len + nvmePageSize then
    let page := prp.prp2 &&& ~~~ nvmePageMask
    if page = prp.prp1 + BitVec.ofNat 64 len then (prp.size, prp)
    else (len, { prp with prp1 := page })
  else
    let out := prpListLoop f prp (prp.prp2 &&& ~~~ 7) none (startLength prp)
    (min out.1 (nvmePrpAvail prp), out.2)

theorem firstLength_pos (prp1 : Addr) : 0 < firstLength prp1 := by
  unfold firstLength nvmePageSize
  rw [and_pageMask_toNat]
  omega

theorem startLength_pos (prp : PrpCtx) : 0 < startLength prp := by
  unfold startLength
  split_ifs
  · exact firstLength_pos prp.prp1
  · decide

theorem prpListLoop_bounds (f : PciFunc) (prp : PrpCtx) (prp2 : Addr) (dma : Option Addr)
    (len : Nat) :
    len ≤ (prpListLoop f prp prp2 dma len).1 ∧
      (prpListLoop f prp prp2 dma len).2.size = prp.size ∧
      (prpListLoop f prp prp2 dma len).2.cur = prp.cur := by
  induction prp2, dma, len using prpListLoop.induct f prp with
  | case1 prp2 dma len below unmapped =>
    rw [prpListLoop, dif_pos below]
    simp [unmapped]
  | case2 prp2 dma len below ptr mapped chains next ih =>
    rw [prpListLoop, dif_pos below]
    simp only [mapped, dif_pos chains]
    exact ih
  | case3 prp2 dma len below ptr mapped chains page scattered =>
    rw [prpListLoop, dif_pos below]
    simp only [mapped, dif_neg chains]
    rw [if_pos scattered]
    exact ⟨le_rfl, rfl, rfl⟩
  | case4 prp2 dma len below ptr mapped chains page contiguous ih =>
    rw [prpListLoop, dif_pos below]
    simp only [mapped, dif_neg chains]
    rw [if_neg contiguous]
    exact ⟨le_trans (Nat.le_add_right _ _) ih.1, ih.2⟩
  | case5 prp2 dma len past =>
    rw [prpListLoop, dif_neg past]
    exact ⟨le_rfl, rfl, rfl⟩

theorem nvmeParsePrpRegion_bounds (f : PciFunc) (prp : PrpCtx) (left : 0 < nvmePrpAvail prp) :
    0 < (nvmeParsePrpRegion f prp).1 ∧ (nvmeParsePrpRegion f prp).1 ≤ nvmePrpAvail prp ∧
      (nvmeParsePrpRegion f prp).2.size = prp.size ∧ (nvmeParsePrpRegion f prp).2.cur = prp.cur := by
  have first := firstLength_pos prp.prp1
  have start := startLength_pos prp
  have loop := prpListLoop_bounds f prp (prp.prp2 &&& ~~~ 7) none (startLength prp)
  unfold nvmeParsePrpRegion
  unfold nvmePrpAvail at *
  dsimp only
  split_ifs with single double contiguous
  · exact ⟨by omega, by omega, rfl, rfl⟩
  · exact ⟨by omega, by omega, rfl, rfl⟩
  · exact ⟨by omega, by omega, rfl, rfl⟩
  · exact ⟨by omega, min_le_right _ _, loop.2⟩

/-- The region's host pointer, its size and the context after it; a region that cannot
be mapped is skipped with size 0. -/
def nvmeGetPrpRegion (f : PciFunc) (prp : PrpCtx) : Option Addr × Nat × PrpCtx :=
  let regAddr := prp.prp1
  let (regSize, prp) := nvmeParsePrpRegion f prp
  if regSize ≠ 0 then
    let region := pciGetDmaPtr f regAddr regSize
    let prp := { prp with cur := prp.cur + regSize }
    if region.isSome then (region, regSize, prp) else (none, 0, prp)
  else (none, 0, prp)

theorem nvmeGetPrpRegion_avail (f : PciFunc) (prp : PrpCtx) (left : 0 < nvmePrpAvail prp) :
    nvmePrpAvail (nvmeGetPrpRegion f prp).2.2 < nvmePrpAvail prp := by
  obtain ⟨positive, within, size, cur⟩ := nvmeParsePrpRegion_bounds f prp left
  unfold nvmePrpAvail at *
  unfold nvmeGetPrpRegion
  dsimp only
  rw [if_pos (by omega)]
  split_ifs
  · dsimp only
    omega
  · dsimp only
    omega

inductive IoOp where
  | read
  | write
  deriving DecidableEq

inductive Status where
  | success
  | dataErr
  deriving DecidableEq

def blkOp (op : IoOp) (blk : RvvmBlk) (size : Nat) (off : Addr) : Nat × RvvmBlk :=
  match op with
  | .write => rvvmBlkWrite blk size off
  | .read => (rvvmBlkRead blk size off, blk)

/-- Guest memory once a request moved `count` bytes: a READ leaves them in the buffer, a WRITE changes nothing. -/
def PciFunc.after (f : PciFunc) (image : Addr → Byte) (op : IoOp) (buffer pos : Addr) (count : Nat) : PciFunc :=
  match op with
  | .write => f
  | .read =>
    let host := f.machine.host.write buffer (fun i => image (pos + i)) (BitVec.ofNat 64 count)
    { f with machine := { f.machine with host } }

set_option linter.unusedVariables false in
/-- The transfer loop of `nvme_io_cmd` on a disk with the bytes of `image`, and the status it completes with.
What a READ has left in guest memory may be read as a PRP list later. -/
def nvmeIoLoop (image : Addr → Byte) (op : IoOp) (f : PciFunc) (blk : RvvmBlk) (prp : PrpCtx) (pos : Addr) :
    Status :=
  if left : 0 < nvmePrpAvail prp then
    let region := nvmeGetPrpRegion f prp
    match region.1 with
    | some buffer =>
      let size := region.2.1
      let out := blkOp op blk size pos
      if out.1 ≠ size then .dataErr
      else
        nvmeIoLoop image op (f.after image op buffer pos size) out.2 region.2.2 (pos + BitVec.ofNat 64 size)
    | none =>
      -- `tmp` and `size` are both 0: no error, and the position stays.
      nvmeIoLoop image op f blk region.2.2 pos
  else .success
termination_by nvmePrpAvail prp
decreasing_by
  · exact nvmeGetPrpRegion_avail f prp left
  · exact nvmeGetPrpRegion_avail f prp left

structure IoCmd where
  op : IoOp
  slba : BitVec 64
  nlb : BitVec 16
  prp1 : Addr
  prp2 : Addr

def IoCmd.size (cmd : IoCmd) : Nat := (cmd.nlb.toNat + 1) * 512

def nvmePreparePrp (cmd : IoCmd) (size : Nat) : PrpCtx := ⟨cmd.prp1, cmd.prp2, size, 0⟩

/-- The READ and WRITE cases of `nvme_io_cmd`. -/
def nvmeIoCmd (image : Addr → Byte) (f : PciFunc) (blk : RvvmBlk) (cmd : IoCmd) : Status :=
  nvmeIoLoop image cmd.op f blk (nvmePreparePrp cmd cmd.size) (cmd.slba <<< 9)

end Rvvm.Nvme
