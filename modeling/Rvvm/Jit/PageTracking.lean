import Rvvm.Machine.Host

/-! Dirty-memory tracking of one JIT heap: two bitmaps with a bit per guest page.
A write to a page with compiled code moves its bit from `jitedPages` to `dirtyPages`. -/
namespace Rvvm

/-- The tracking part of `rvjit_heap_t`; the arrays hold `dirtyMask + 1` words. -/
structure RvjitPages where
  dirtyMask : Addr
  jitedPages : Addr → BitVec 32
  dirtyPages : Addr → BitVec 32

namespace RvjitPages

def offset (t : RvjitPages) (addr : Addr) : Addr := (addr >>> 17) &&& t.dirtyMask

def bit (addr : Addr) : BitVec 32 := 1#32 <<< ((addr >>> 12) &&& 0x1F#64)

def jited (t : RvjitPages) (addr : Addr) : Bool := t.jitedPages (t.offset addr) &&& bit addr != 0

end RvjitPages

def rvjitMarkDirtyPage (t : RvjitPages) (addr : Addr) : RvjitPages :=
  if t.jited addr then
    { t with
      dirtyPages := Function.update t.dirtyPages (t.offset addr)
        (t.dirtyPages (t.offset addr) ||| RvjitPages.bit addr)
      jitedPages := Function.update t.jitedPages (t.offset addr)
        (t.jitedPages (t.offset addr) &&& ~~~ RvjitPages.bit addr) }
  else t

/-- The loop `for (i = 0; i < size; i += 4096)`: one page per 4096 bytes of the
size, counted from the unaligned start address. -/
def rvjitMarkDirtyMem (t : RvjitPages) (addr size : Addr) : RvjitPages :=
  (List.range ((size.toNat + 4095) / 4096)).foldl
    (fun t k => rvjitMarkDirtyPage t (addr + BitVec.ofNat 64 (k * 4096))) t

end Rvvm
