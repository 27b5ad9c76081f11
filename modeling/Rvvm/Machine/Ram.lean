import Rvvm.Jit.PageTracking

/-! Guest RAM and the three entry points devices reach it through. The bound
check is written as in the source, on 64-bit sums. -/
namespace Rvvm
open BitVec

/-- `rvvm_ram_t`: guest RAM `[addr, addr + size)` kept in the host buffer at `data`. -/
structure RvvmRam where
  addr : Addr
  size : Addr
  data : Addr
  fits : addr.toNat + size.toNat < 2 ^ 64
  mapped : data.toNat + size.toNat ≤ 2 ^ 64

/-- Each hart carries its page tracking, `none` when it is not allocated. -/
structure RvvmMachine where
  mem : RvvmRam
  host : HostMem
  harts : List (Option RvjitPages)

def riscvJitMarkDirtyMem (m : RvvmMachine) (addr size : Addr) : RvvmMachine :=
  { m with harts := m.harts.map (Option.map fun t => rvjitMarkDirtyMem t addr size) }

/-- The shared guard of the three entry points. -/
def RvvmRam.accepts (mem : RvvmRam) (addr size : Addr) : Bool :=
  mem.addr ≤ addr && addr + size ≤ mem.addr + mem.size

def rvvmWriteRam (m : RvvmMachine) (dest src size : Addr) : Bool × RvvmMachine :=
  if m.mem.accepts dest size then
    (true, riscvJitMarkDirtyMem
      { m with host := m.host.memcpy (m.mem.data + (dest - m.mem.addr)) src size } dest size)
  else (false, m)

def rvvmReadRam (m : RvvmMachine) (dest src size : Addr) : Bool × RvvmMachine :=
  if m.mem.accepts src size then
    (true, { m with host := m.host.memcpy dest (m.mem.data + (src - m.mem.addr)) size })
  else (false, m)

def rvvmGetDmaPtr (m : RvvmMachine) (addr size : Addr) : Option Addr × RvvmMachine :=
  if m.mem.accepts addr size then
    (some (m.mem.data + (addr - m.mem.addr)), riscvJitMarkDirtyMem m addr size)
  else (none, m)

/-- The access lies in RAM as an interval of unbounded integers. -/
def RvvmRam.Inside (mem : RvvmRam) (addr size : Addr) : Prop :=
  mem.addr.toNat ≤ addr.toNat ∧ addr.toNat + size.toNat ≤ mem.addr.toNat + mem.size.toNat

/-- A host pointer into the RAM buffer. -/
def RvvmRam.Owns (mem : RvvmRam) (p : Addr) : Prop :=
  mem.data.toNat ≤ p.toNat ∧ p.toNat < mem.data.toNat + mem.size.toNat

/-- Success only inside RAM, with the pointer valid for the whole access; outside
RAM every entry point fails and leaves the machine as it was. -/
structure DmaConfined (m : RvvmMachine) (addr size : Addr) : Prop where
  ptr : ∀ p, (rvvmGetDmaPtr m addr size).1 = some p →
    m.mem.Inside addr size ∧ ∀ off < size, m.mem.Owns (p + off)
  read : ∀ dest, (rvvmReadRam m dest addr size).1 = true → m.mem.Inside addr size
  write : ∀ src, (rvvmWriteRam m addr src size).1 = true → m.mem.Inside addr size
  refused : ¬ m.mem.Inside addr size →
    rvvmGetDmaPtr m addr size = (none, m) ∧
      (∀ dest, rvvmReadRam m dest addr size = (false, m)) ∧
        ∀ src, rvvmWriteRam m addr src size = (false, m)

/-- The 64-bit sum `addr + size` wraps to a value the bound check accepts. -/
def RvvmRam.WrapsIntoRam (mem : RvvmRam) (addr size : Addr) : Prop :=
  mem.addr.toNat ≤ addr.toNat ∧ 2 ^ 64 ≤ addr.toNat + size.toNat ∧
    addr.toNat + size.toNat - 2 ^ 64 ≤ mem.addr.toNat + mem.size.toNat

theorem RvvmRam.end_toNat (mem : RvvmRam) :
    (mem.addr + mem.size).toNat = mem.addr.toNat + mem.size.toNat := by
  rw [toNat_add, Nat.mod_eq_of_lt mem.fits]

theorem RvvmRam.accepts_iff (mem : RvvmRam) (addr size : Addr) :
    mem.accepts addr size = true ↔ mem.Inside addr size ∨ mem.WrapsIntoRam addr size := by
  have hend := mem.end_toNat
  simp only [accepts, Inside, WrapsIntoRam, Bool.and_eq_true, decide_eq_true_eq, le_def,
    hend, toNat_add]
  omega

theorem RvvmRam.not_inside_of_wraps {mem : RvvmRam} {addr size : Addr}
    (wraps : mem.WrapsIntoRam addr size) : ¬ mem.Inside addr size := by
  have hfit := mem.fits
  intro inside
  obtain ⟨-, hi⟩ := inside
  obtain ⟨-, hw, -⟩ := wraps
  omega

theorem RvvmRam.owns_of_inside {mem : RvvmRam} {addr size off : Addr}
    (inside : mem.Inside addr size) (below : off < size) :
    mem.Owns (mem.data + (addr - mem.addr) + off) := by
  obtain ⟨hlow, hhigh⟩ := inside
  have hmap := mem.mapped
  have hoff : off.toNat < size.toNat := below
  have hsub : (addr - mem.addr).toNat = addr.toNat - mem.addr.toNat :=
    toNat_sub_of_le hlow
  have hptr : (mem.data + (addr - mem.addr) + off).toNat =
      mem.data.toNat + (addr.toNat - mem.addr.toNat) + off.toNat := by
    rw [toNat_add, toNat_add]
    omega
  constructor <;> rw [hptr] <;> omega

/-- Confinement holds for exactly the accesses whose end does not wrap into RAM. -/
theorem dma_confined_iff (m : RvvmMachine) (addr size : Addr) :
    DmaConfined m addr size ↔ ¬ m.mem.WrapsIntoRam addr size := by
  constructor
  · intro confined wraps
    have accepted := (m.mem.accepts_iff addr size).mpr (.inr wraps)
    have read := confined.read 0 (by simp only [rvvmReadRam, accepted, if_true])
    exact RvvmRam.not_inside_of_wraps wraps read
  · intro safe
    have inside : m.mem.accepts addr size = true → m.mem.Inside addr size := fun accepted =>
      ((m.mem.accepts_iff addr size).mp accepted).resolve_right safe
    refine ⟨?_, ?_, ?_, ?_⟩
    · intro p found
      simp only [rvvmGetDmaPtr] at found
      split_ifs at found with accepted
      · rw [← Option.some.inj found]
        exact ⟨inside accepted, fun off below => RvvmRam.owns_of_inside (inside accepted) below⟩
    · intro dest success
      simp only [rvvmReadRam] at success
      split_ifs at success with accepted
      exact inside accepted
    · intro src success
      simp only [rvvmWriteRam] at success
      split_ifs at success with accepted
      exact inside accepted
    · intro outside
      have rejected : ¬ m.mem.accepts addr size = true := fun accepted => outside (inside accepted)
      simp [rvvmGetDmaPtr, rvvmReadRam, rvvmWriteRam, if_neg rejected]

def exampleMachine : RvvmMachine where
  mem := ⟨0x80000000, 0x10000000, 0x7f0000000000, by decide, by decide⟩
  host := fun _ => 0
  harts := []

/-- The last guest page of the address space is handed out as a DMA pointer. -/
theorem dma_confinement_fails :
    ¬ DmaConfined exampleMachine 0xFFFFFFFFFFFFF000 0x1000 := by
  intro confined
  have accepted : (rvvmReadRam exampleMachine 0 0xFFFFFFFFFFFFF000 0x1000).1 = true := rfl
  obtain ⟨-, high⟩ := confined.read 0 accepted
  exact absurd high (by decide)

end Rvvm
