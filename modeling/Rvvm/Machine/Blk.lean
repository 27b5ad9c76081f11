import Rvvm.Machine.Host

/-! The block layer between a storage device and its image backend. Only the amounts
moved matter here: a backend answers each request with how many bytes it transferred. -/
namespace Rvvm
open BitVec

/-- `rvvm_blk_dev_t`: open options, size, and the backend's answers by offset and
requested size. No backend reports more than it was asked for. -/
structure RvvmBlk where
  read : Bool
  write : Bool
  grow : Bool
  size : Addr
  cbRead : Addr → Nat → Nat
  cbWrite : Addr → Nat → Nat
  cbRead_le : ∀ off size, cbRead off size ≤ size
  cbWrite_le : ∀ off size, cbWrite off size ≤ size

def rvvmBlkRead (blk : RvvmBlk) (size : Nat) (off : Addr) : Nat :=
  if blk.read ∧ off < blk.size then
    let remain := (blk.size - off).toNat
    blk.cbRead off (if size > remain then remain else size)
  else 0

def rvvmBlkGrowSize (blk : RvvmBlk) (size : Addr) : RvvmBlk :=
  if size ≤ blk.size then blk else { blk with size }

/-- The tail of `rvvm_blk_write` for requests that do not fit the device. -/
def rvvmBlkExtend (blk : RvvmBlk) (size : Nat) (off : Addr) : Nat × RvvmBlk :=
  if blk.grow ∧ off < off + BitVec.ofNat 64 size then
    let ret := blk.cbWrite off size
    (ret, rvvmBlkGrowSize blk (off + BitVec.ofNat 64 ret))
  else (0, blk)

def rvvmBlkWrite (blk : RvvmBlk) (size : Nat) (off : Addr) : Nat × RvvmBlk :=
  if blk.write then
    if off < blk.size then
      let remain := (blk.size - off).toNat
      if size ≤ remain then (blk.cbWrite off size, blk)
      else if !blk.grow then (blk.cbWrite off remain, blk)
      else rvvmBlkExtend blk size off
    else rvvmBlkExtend blk size off
  else (0, blk)

theorem rvvmBlkRead_le (blk : RvvmBlk) (size : Nat) (off : Addr) :
    rvvmBlkRead blk size off ≤ size := by
  unfold rvvmBlkRead
  dsimp only
  split_ifs with ready long
  · exact le_trans (blk.cbRead_le _ _) (le_of_lt long)
  · exact blk.cbRead_le _ _
  · exact Nat.zero_le _

theorem rvvmBlkWrite_le (blk : RvvmBlk) (size : Nat) (off : Addr) :
    (rvvmBlkWrite blk size off).1 ≤ size := by
  unfold rvvmBlkWrite rvvmBlkExtend
  dsimp only
  split_ifs with _ _ fits
  · exact blk.cbWrite_le _ _
  · exact le_trans (blk.cbWrite_le _ _) (le_of_lt (not_le.mp fits))
  · exact blk.cbWrite_le _ _
  · exact Nat.zero_le _
  · exact blk.cbWrite_le _ _
  · exact Nat.zero_le _
  · exact Nat.zero_le _

end Rvvm
