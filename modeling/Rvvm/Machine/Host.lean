import Mathlib.Tactic

/-! Host-side memory: 64-bit pointers, bytes, and the copies the emulator makes.
Pointer arithmetic wraps modulo `2^64`, as `size_t` arithmetic does. -/
namespace Rvvm

abbrev Addr := BitVec 64
abbrev Byte := BitVec 8
abbrev HostMem := Addr → Byte

/-- `memcpy` of `size` bytes produced by `src` to the host pointer `dst`. -/
def HostMem.write (host : HostMem) (dst : Addr) (src : Addr → Byte) (size : Addr) : HostMem :=
  fun p => if p - dst < size then src (p - dst) else host p

/-- `memcpy` between two host pointers; the ranges are read before any write. -/
def HostMem.memcpy (host : HostMem) (dst src size : Addr) : HostMem :=
  host.write dst (fun i => host (src + i)) size

theorem HostMem.write_apply (host : HostMem) (dst : Addr) (src : Addr → Byte) (size p : Addr) :
    host.write dst src size p = if p - dst < size then src (p - dst) else host p := rfl

theorem HostMem.write_outside (host : HostMem) {dst p size : Addr} (src : Addr → Byte)
    (outside : ¬ p - dst < size) : host.write dst src size p = host p := if_neg outside

theorem HostMem.write_inside (host : HostMem) {dst i size : Addr} (src : Addr → Byte)
    (inside : i < size) : host.write dst src size (dst + i) = src i := by
  have offset : dst + i - dst = i := by rw [BitVec.add_comm, BitVec.add_sub_cancel]
  rw [write_apply, offset, if_pos inside]

def readUint16Le (host : HostMem) (p : Addr) : BitVec 16 := host (p + 1) ++ host p

def readUint32Le (host : HostMem) (p : Addr) : BitVec 32 :=
  readUint16Le host (p + 2) ++ readUint16Le host p

def readUint64Le (host : HostMem) (p : Addr) : BitVec 64 :=
  readUint32Le host (p + 4) ++ readUint32Le host p

end Rvvm
