import Rvvm.Cpu.BitOps
import Rvvm.Machine.Host
import Rvvm.Devices.Pci
import Rvvm.Library.Align

/-! Base address registers: how a function's regions are sized and placed through its
configuration space. -/
namespace Rvvm.Pci
open Nat hiding and_or_distrib_right
open Bool hiding and_or_distrib_right
open Align BitVec Function Option
open BitVec (ofNat)

structure Bar where
  addr : Addr
  size : Nat
  pos : 0 < size
  bound : size < 2 ^ 64

/-- What the registers of `rvvm_pci_function` depend on: its bus address, whether its class is that
of a bridge, which registers are for I/O ports, and where ports begin. There are six registers. -/
structure BarFunc where
  addr : Nat
  bridge : Bool
  barIoMask : BitVec 8
  ioAddr : Addr
  bar : Nat → Option Bar
  within : ∀ i, 6 ≤ i → bar i = none
  bridgeIo : Reg
  bridgeMem : Reg

namespace BarFunc
variable (f : BarFunc)

def isIo (i : Nat) : Bool := f.barIoMask.getLsbD i

def setAddr (i : Nat) (addr : Addr) : BarFunc :=
  { f with
    bar := update f.bar i ((f.bar i).map fun bar => { bar with addr := addr })
    within := by
      intro j outside
      rw [update_apply]
      split
      next same => rw [← same, f.within j outside]; rfl
      · exact f.within j outside }

end BarFunc

def pciBarIsUpperHalf (f : BarFunc) (i : Nat) : Bool := i != 0 && (f.bar i).isNone && (f.bar (i - 1)).isSome

def pciBarIs64bit (f : BarFunc) (i : Nat) : Bool :=
  decide (i + 1 < 6) && (f.bar i).isSome && (f.bar (i + 1)).isNone

/-- The register whose region the register `i` is for. -/
def pciEffectiveBar (f : BarFunc) (i : Nat) : Nat := if pciBarIsUpperHalf f i then i - 1 else i

/-- A bridge has only two of the registers. -/
def BarFunc.hasBar (f : BarFunc) (i : Nat) : Bool := !f.bridge || decide (i < 2)

def pciReadBar (f : BarFunc) (i : Nat) : Reg :=
  if f.hasBar i then
    match f.bar (pciEffectiveBar f i) with
    | none => 0
    | some bar =>
      if pciBarIsUpperHalf f i then (bar.addr >>> 32).setWidth 32
      else if f.isIo i then (bar.addr - f.ioAddr).setWidth 32 ||| 0x1#32
      else
        bar.addr.setWidth 32 ||| (if pciBarIs64bit f i then 0x4#32 else 0) |||
          (if 0x08000000 ≤ bar.size then 0x8#32 else 0)
  else
    let secondaryBus : BitVec 8 := ofNat 8 (f.addr / 8 + f.addr % 8)
    match i with
    | 2 => (secondaryBus.setWidth 32 <<< 16) ||| (secondaryBus.setWidth 32 <<< 8)
    | 3 => f.bridgeIo
    | 4 => f.bridgeMem
    | _ => 0

/-- The address a write to register `i` gives its region, before it is aligned. -/
def pciBarWritten (f : BarFunc) (i : Nat) (bar : Bar) (val : Reg) : Addr :=
  if pciBarIsUpperHalf f i then bitReplace bar.addr 32 32 (val.setWidth 64)
  else if f.isIo i then f.ioAddr + (val &&& ~~~ 0x3#32).setWidth 64
  else bitReplace bar.addr 0 32 ((val &&& ~~~ 0xFFF#32).setWidth 64)

def pciWriteBar (f : BarFunc) (i : Nat) (val : Reg) : BarFunc :=
  if f.hasBar i then
    match f.bar (pciEffectiveBar f i) with
    | none => f
    | some bar =>
      f.setAddr (pciEffectiveBar f i)
        (pciBarWritten f i bar val &&& ~~~ (ofNat 64 (bitNextPow2 bar.size) - 1#64))
  else
    match i with
    | 3 => { f with bridgeIo := val }
    | 4 => { f with bridgeMem := val }
    | _ => f

/-! The protocol. -/

inductive BarKind
  | io | mem32 | mem64
  deriving DecidableEq, Repr

def barKind (f : BarFunc) (i : Nat) : BarKind :=
  if f.isIo i then .io else if pciBarIs64bit f i then .mem64 else .mem32

/-- The size that writing ones and reading back shows. -/
def barSized (f : BarFunc) (i : Nat) : Nat :=
  let ones : Reg := allOnes 32
  match barKind f i with
  | .io => maskSize (pciReadBar (pciWriteBar f i ones) i &&& ~~~ 0x3#32)
  | .mem32 => maskSize (pciReadBar (pciWriteBar f i ones) i &&& ~~~ 0xF#32)
  | .mem64 =>
    let written := pciWriteBar (pciWriteBar f i ones) (i + 1) ones
    maskSize (pciReadBar written (i + 1) ++ (pciReadBar written i &&& ~~~ 0xF#32))

/-- An address is written, in two halves where there are two. -/
def barPlace (f : BarFunc) (i : Nat) (a : Addr) : BarFunc :=
  match barKind f i with
  | .io => pciWriteBar f i (a.setWidth 32)
  | .mem32 => pciWriteBar f i (a.setWidth 32)
  | .mem64 => pciWriteBar (pciWriteBar f i (a.setWidth 32)) (i + 1) ((a >>> 32).setWidth 32)

/-- Where the region is meant to be then; ports are counted from the window. -/
def barTarget (f : BarFunc) (i : Nat) (a : Addr) : Addr :=
  match barKind f i with
  | .io => f.ioAddr + a
  | .mem32 => a
  | .mem64 => a

def barTypeMask (f : BarFunc) (i : Nat) : Reg := if f.isIo i then 0x3 else 0xF

structure BarAnswers (f : BarFunc) (i : Nat) (bar : Bar) : Prop where
  sizes : ∃ k, barSized f i = 2 ^ k ∧ bar.size ≤ 2 ^ k
  types : ∀ j < 6, ∀ val,
    pciReadBar (pciWriteBar f j val) i &&& barTypeMask f i = pciReadBar f i &&& barTypeMask f i
  relocates : ∀ a, barSized f i ∣ a.toNat → (barKind f i ≠ .mem64 → a.toNat < 2 ^ 32) →
    barPlace f i a = f.setAddr i (barTarget f i a)

/-- Every region is answered for, and the registers without one take no writes, unless they are
the upper half of a memory region's address. -/
structure BarProtocol (f : BarFunc) : Prop where
  answers : ∀ i bar, f.bar i = some bar → BarAnswers f i bar
  absent : ∀ j < 6, f.hasBar j = true → f.bar j = none →
    ¬ (0 < j ∧ (f.bar (j - 1)).isSome ∧ f.isIo (j - 1) = false) → ∀ val, pciWriteBar f j val = f

/-- The size is what the registers can show. -/
def SizeOk (granule size : Nat) : Prop := size ≤ granule ∨ size = 2 ^ log2 size

def BarLayout (f : BarFunc) (i : Nat) (bar : Bar) : Prop :=
  f.hasBar i = true ∧
    match barKind f i with
    | .io => SizeOk 4 bar.size ∧ bar.size ≤ 2 ^ 31 ∧ 2 ^ log2 bar.size ∣ f.ioAddr.toNat ∧
        (i + 1 < 6 → f.hasBar (i + 1) = true → (f.bar (i + 1)).isSome)
    | .mem32 => SizeOk 0x1000 bar.size ∧ bar.size ≤ 2 ^ 31 ∧ bar.addr.toNat < 2 ^ 32
    | .mem64 => SizeOk 0x1000 bar.size ∧ f.hasBar (i + 1) = true

def BarLayouts (f : BarFunc) : Prop := ∀ i bar, f.bar i = some bar → BarLayout f i bar

/-- Addresses as they are assigned when the function is attached: regions begin on a page, ports
on a multiple of 4. -/
structure BarsAligned (f : BarFunc) : Prop where
  window : 2 ^ 2 ∣ f.ioAddr.toNat
  mem : ∀ i bar, f.bar i = some bar → f.isIo i = false → 2 ^ 12 ∣ bar.addr.toNat
  io : ∀ i bar, f.bar i = some bar → f.isIo i = true → 2 ^ 2 ∣ bar.addr.toNat

theorem Bar.log2_lt (bar : Bar) : log2 bar.size < 64 :=
  (Nat.log2_lt (Nat.ne_of_gt bar.pos)).mpr bar.bound

section Registers
variable {f : BarFunc} {i : Nat} {bar : Bar}

theorem setAddr_bar_self (found : f.bar i = some bar) (a : Addr) :
    (f.setAddr i a).bar i = some { bar with addr := a } := by
  unfold BarFunc.setAddr
  dsimp only
  rw [update_self, found]
  rfl

theorem setAddr_bar_of_ne {j : Nat} (other : j ≠ i) (a : Addr) : (f.setAddr i a).bar j = f.bar j :=
  update_of_ne other ..

theorem setAddr_setAddr (f : BarFunc) (i : Nat) (a b : Addr) : (f.setAddr i a).setAddr i b = f.setAddr i b := by
  unfold BarFunc.setAddr
  simp only [update_self, update_idem, map_map]
  rfl

structure SameLayout (f f' : BarFunc) : Prop where
  bridge : f'.bridge = f.bridge
  barIoMask : f'.barIoMask = f.barIoMask
  ioAddr : f'.ioAddr = f.ioAddr
  sizes : ∀ i, (f'.bar i).map Bar.size = (f.bar i).map Bar.size

namespace SameLayout
variable {f' : BarFunc} (same : SameLayout f f')
include same

theorem isSome (i : Nat) : (f'.bar i).isSome = (f.bar i).isSome := by
  have sizes := congrArg Option.isSome (same.sizes i)
  rwa [isSome_map, isSome_map] at sizes

theorem isNone (i : Nat) : (f'.bar i).isNone = (f.bar i).isNone := by
  rw [← not_isSome, ← not_isSome, same.isSome]

theorem hasBar (i : Nat) : f'.hasBar i = f.hasBar i := by unfold BarFunc.hasBar; rw [same.bridge]

theorem isIo (i : Nat) : f'.isIo i = f.isIo i := by unfold BarFunc.isIo; rw [same.barIoMask]

theorem wide (i : Nat) : pciBarIs64bit f' i = pciBarIs64bit f i := by
  unfold pciBarIs64bit
  rw [same.isNone, same.isSome]

theorem kind (i : Nat) : barKind f' i = barKind f i := by
  unfold barKind
  rw [same.isIo, same.wide]

theorem found {i : Nat} {bar : Bar} (found : f.bar i = some bar) :
    ∃ bar', f'.bar i = some bar' ∧ bar'.size = bar.size := by
  have sizes := same.sizes i
  rw [found] at sizes
  exact map_eq_some_iff.mp sizes

theorem symm : SameLayout f' f where
  bridge := same.bridge.symm
  barIoMask := same.barIoMask.symm
  ioAddr := same.ioAddr.symm
  sizes := fun i => (same.sizes i).symm

end SameLayout

theorem setAddr_sameLayout (f : BarFunc) (i : Nat) (a : Addr) : SameLayout f (f.setAddr i a) where
  bridge := rfl
  barIoMask := rfl
  ioAddr := rfl
  sizes := by
    intro j
    by_cases same : j = i
    · subst same
      unfold BarFunc.setAddr
      dsimp only
      rw [update_self, map_map]
      rfl
    · rw [setAddr_bar_of_ne same]

theorem pciWriteBar_sameLayout (f : BarFunc) (i : Nat) (val : Reg) : SameLayout f (pciWriteBar f i val) := by
  unfold pciWriteBar
  split
  · split
    · exact ⟨rfl, rfl, rfl, fun _ => rfl⟩
    · exact setAddr_sameLayout f _ _
  · split <;> exact ⟨rfl, rfl, rfl, fun _ => rfl⟩

section
variable (found : f.bar i = some bar)
include found

theorem upperHalf_of_found : pciBarIsUpperHalf f i = false := by
  simp [pciBarIsUpperHalf, found]

theorem upperHalf_succ (empty : f.bar (i + 1) = none) :
    pciBarIsUpperHalf f (i + 1) = true := by
  simp [pciBarIsUpperHalf, found, empty]

theorem effectiveBar_of_found : pciEffectiveBar f i = i := by
  rw [pciEffectiveBar, upperHalf_of_found found]
  rfl

theorem effectiveBar_succ (empty : f.bar (i + 1) = none) :
    pciEffectiveBar f (i + 1) = i := by
  rw [pciEffectiveBar, upperHalf_succ found empty]
  rfl

end

theorem pciWriteBar_own (slot : f.hasBar i = true) (found : f.bar i = some bar) (val : Reg) :
    pciWriteBar f i val = f.setAddr i (alignDown (pciBarWritten f i bar val) (log2 bar.size)) := by
  unfold pciWriteBar
  rw [if_pos slot, effectiveBar_of_found found, found]
  dsimp only
  rw [bitNextPow2_eq bar.pos]
  rfl

section
variable (slot : f.hasBar (i + 1) = true) (found : f.bar i = some bar) (empty : f.bar (i + 1) = none)
include slot found empty

theorem pciWriteBar_upper (val : Reg) :
    pciWriteBar f (i + 1) val =
      f.setAddr i (alignDown (bitReplace bar.addr 32 32 (val.setWidth 64)) (log2 bar.size)) := by
  unfold pciWriteBar pciBarWritten
  rw [if_pos slot, effectiveBar_succ found empty, found]
  dsimp only
  rw [bitNextPow2_eq bar.pos, if_pos (upperHalf_succ found empty)]
  rfl

theorem pciReadBar_upper : pciReadBar f (i + 1) = (bar.addr >>> 32).setWidth 32 := by
  unfold pciReadBar
  rw [if_pos slot, effectiveBar_succ found empty, found]
  dsimp only
  rw [if_pos (upperHalf_succ found empty)]

end

theorem pciReadBar_own (slot : f.hasBar i = true) (found : f.bar i = some bar) :
    pciReadBar f i =
      if f.isIo i then (bar.addr - f.ioAddr).setWidth 32 ||| 0x1#32
      else bar.addr.setWidth 32 ||| (if pciBarIs64bit f i then 0x4#32 else 0) |||
        (if 0x08000000 ≤ bar.size then 0x8#32 else 0) := by
  unfold pciReadBar
  rw [if_pos slot, effectiveBar_of_found found, found]
  dsimp only
  rw [if_neg (by rw [upperHalf_of_found found]; decide)]

end Registers

section Bits

theorem getLsbD_of_small {w : Nat} {x : BitVec w} {g j : Nat} (small : x.toNat < 2 ^ g) (above : g ≤ j) :
    x.getLsbD j = false :=
  Nat.testBit_lt_two_pow (Nat.lt_of_lt_of_le small (Nat.pow_le_pow_right (by decide) above))

theorem small_of_same {x y : Addr} {g : Nat} (same : ∀ j < 64, g ≤ j → x.getLsbD j = y.getLsbD j)
    (small : y.toNat < 2 ^ g) : x.toNat < 2 ^ g := by
  refine lt_pow_two_of_testBit _ fun j high => ?_
  by_cases within : j < 64
  · exact (same j within high).trans (getLsbD_of_small small high)
  · exact getLsbD_of_ge x j (Nat.le_of_not_lt within)

variable {j : Nat}

theorem getLsbD_clear (val : Reg) (g : Nat) (low : j < 32) :
    (val &&& ~~~ ofNat 32 (2 ^ g - 1)).getLsbD j = (decide (g ≤ j) && val.getLsbD j) := by
  rw [getLsbD_and, getLsbD_not, getLsbD_ofNat]
  by_cases below : j < g
  · simp [low, below]
  · simp [low, below, Nat.le_of_not_lt below]

theorem getLsbD_clear_port (val : Reg) (low : j < 32) :
    (val &&& ~~~ 0x3#32).getLsbD j = (decide (2 ≤ j) && val.getLsbD j) := getLsbD_clear val 2 low

variable {n : Nat} (inside : n < 64)
include inside

theorem getLsbD_low (addr : Addr) (val : Reg) (below : j < 64) :
    (alignDown (bitReplace addr 0 32 ((val &&& ~~~ 0xFFF#32).setWidth 64)) n).getLsbD j =
      (decide (n ≤ j) && if j < 32 then decide (12 ≤ j) && val.getLsbD j else addr.getLsbD j) := by
  rw [getLsbD_alignDown _ inside, getLsbD_bitReplace _ _ _ _ _ below]
  by_cases low : j < 32
  · have page : (0xFFF#32 : Reg) = ofNat 32 (2 ^ 12 - 1) := by decide
    rw [if_pos ⟨Nat.zero_le j, by omega⟩, Nat.sub_zero, getLsbD_setWidth, decide_eq_true below,
      Bool.true_and, if_pos low, page, getLsbD_clear val 12 low]
  · simp [low]

theorem getLsbD_high (addr : Addr) (val : Reg) (below : j < 64) :
    (alignDown (bitReplace addr 32 32 (val.setWidth 64)) n).getLsbD j =
      (decide (n ≤ j) && if j < 32 then addr.getLsbD j else val.getLsbD (j - 32)) := by
  rw [getLsbD_alignDown _ inside, getLsbD_bitReplace _ _ _ _ _ below]
  by_cases low : j < 32
  · simp [low, Nat.not_le_of_lt low]
  · simp [low, Nat.le_of_not_lt low, below, show j - 32 < 64 by omega]

end Bits

section Sizes
variable {f : BarFunc} {i : Nat} {bar : Bar}

theorem isIo_of_io (kind : barKind f i = .io) : f.isIo i = true := by
  unfold barKind at kind
  split at kind
  next io => exact io
  · split at kind <;> cases kind

theorem mem_of_mem32 (kind : barKind f i = .mem32) : f.isIo i = false ∧ pciBarIs64bit f i = false := by
  unfold barKind at kind
  split at kind
  · cases kind
  next mem =>
    split at kind
    · cases kind
    next narrow => exact ⟨eq_false_iff.mpr mem, eq_false_iff.mpr narrow⟩

theorem mem_of_mem64 (kind : barKind f i = .mem64) :
    f.isIo i = false ∧ pciBarIs64bit f i = true ∧ i + 1 < 6 ∧ f.bar (i + 1) = none := by
  unfold barKind at kind
  split at kind
  · cases kind
  next mem =>
    split at kind
    next wide =>
      have parts := wide
      simp only [pciBarIs64bit, and_eq_true, decide_eq_true_eq, isNone_iff_eq_none] at parts
      exact ⟨eq_false_iff.mpr mem, wide, parts.1.1, parts.2⟩
    · cases kind

variable (slot : f.hasBar i = true) (found : f.bar i = some bar)
include slot found

theorem getLsbD_read_mem (mem : f.isIo i = false)
    {j : Nat} (low : j < 32) :
    (pciReadBar f i &&& ~~~ 0xF#32).getLsbD j = (decide (4 ≤ j) && bar.addr.getLsbD j) := by
  have type : (0xF#32 : Reg) = ofNat 32 (2 ^ 4 - 1) := by decide
  rw [pciReadBar_own slot found, if_neg (by rw [mem]; decide), type, getLsbD_clear _ 4 low, getLsbD_or,
    getLsbD_or, getLsbD_setWidth, decide_eq_true low, Bool.true_and]
  by_cases high : 4 ≤ j
  · have wide : (if pciBarIs64bit f i then 0x4#32 else 0).getLsbD j = false :=
      getLsbD_of_small (by split <;> decide) high
    have prefetch : (if 0x08000000 ≤ bar.size then 0x8#32 else 0).getLsbD j = false :=
      getLsbD_of_small (by split <;> decide) high
    rw [wide, prefetch, Bool.or_false, Bool.or_false]
  · simp [high]

theorem getLsbD_read_io (io : f.isIo i = true)
    {j : Nat} (low : j < 32) :
    (pciReadBar f i &&& ~~~ 0x3#32).getLsbD j = (decide (2 ≤ j) && (bar.addr - f.ioAddr).getLsbD j) := by
  rw [pciReadBar_own slot found, if_pos io, getLsbD_clear_port _ low, getLsbD_or,
    getLsbD_setWidth, decide_eq_true low, Bool.true_and]
  by_cases high : 2 ≤ j
  · have one : (0x1#32 : Reg).getLsbD j = false := getLsbD_of_small (by decide) high
    exact congrArg _ (by rw [one, Bool.or_false])
  · simp [high]

theorem pciWriteBar_io (io : f.isIo i = true) (val : Reg) :
    pciWriteBar f i val =
      f.setAddr i (alignDown (f.ioAddr + (val &&& ~~~ 0x3#32).setWidth 64) (log2 bar.size)) := by
  rw [pciWriteBar_own slot found, pciBarWritten, upperHalf_of_found found, if_neg nofun, if_pos io]

theorem barSized_io (kind : barKind f i = .io)
    (window : 2 ^ log2 bar.size ∣ f.ioAddr.toNat) :
    barSized f i = if max 2 (log2 bar.size) < 32 then 2 ^ max 2 (log2 bar.size) else 0 := by
  have io := isIo_of_io kind
  unfold barSized
  rw [kind]
  dsimp only
  rw [pciWriteBar_io slot found io, alignDown_add _ bar.log2_lt window]
  apply maskSize_eq
  intro j low
  rw [getLsbD_read_io (f := f.setAddr i _) slot (setAddr_bar_self found _) io low]
  dsimp only [BarFunc.setAddr]
  rw [BitVec.add_comm, BitVec.add_sub_cancel, getLsbD_alignDown _ bar.log2_lt, getLsbD_setWidth,
    getLsbD_clear_port _ low, getLsbD_allOnes, Bool.eq_iff_iff]
  simp only [Bool.and_eq_true, decide_eq_true_eq]
  omega

theorem pciWriteBar_mem (mem : f.isIo i = false)
    (val : Reg) :
    ∃ a, pciWriteBar f i val = f.setAddr i a ∧ ∀ j < 64, a.getLsbD j =
      (decide (log2 bar.size ≤ j) && if j < 32 then decide (12 ≤ j) && val.getLsbD j
        else bar.addr.getLsbD j) := by
  refine ⟨_, pciWriteBar_own slot found val, fun j below => ?_⟩
  unfold pciBarWritten
  rw [upperHalf_of_found found, mem, if_neg nofun]
  exact getLsbD_low bar.log2_lt bar.addr val below

theorem pciWriteBar_both (high : f.hasBar (i + 1) = true)
    (mem : f.isIo i = false) (empty : f.bar (i + 1) = none) (lo hi : Reg) :
    ∃ a, pciWriteBar (pciWriteBar f i lo) (i + 1) hi = f.setAddr i a ∧ ∀ j < 64, a.getLsbD j =
      (decide (log2 bar.size ≤ j) &&
        if j < 32 then decide (12 ≤ j) && lo.getLsbD j else hi.getLsbD (j - 32)) := by
  obtain ⟨a, first, bits⟩ := pciWriteBar_mem slot found mem lo
  have firstBar : (f.setAddr i a).bar i = some { bar with addr := a } := setAddr_bar_self found a
  have firstEmpty : (f.setAddr i a).bar (i + 1) = none := (setAddr_bar_of_ne (succ_ne_self i) a).trans empty
  have second := pciWriteBar_upper (f := f.setAddr i a) high firstBar firstEmpty hi
  rw [setAddr_setAddr] at second
  refine ⟨_, (congrArg (pciWriteBar · (i + 1) hi) first).trans second, fun j below => ?_⟩
  rw [getLsbD_high bar.log2_lt a hi below]
  split
  next below32 =>
    rw [bits j below, if_pos below32]
    cases decide (log2 bar.size ≤ j) <;> rfl
  · rfl

theorem barSized_mem32 (kind : barKind f i = .mem32) :
    barSized f i = if max 12 (log2 bar.size) < 32 then 2 ^ max 12 (log2 bar.size) else 0 := by
  obtain ⟨mem, -⟩ := mem_of_mem32 kind
  obtain ⟨a, written, bits⟩ := pciWriteBar_mem slot found mem (allOnes 32)
  unfold barSized
  rw [kind]
  dsimp only
  rw [written]
  apply maskSize_eq
  intro j low
  rw [getLsbD_read_mem (f := f.setAddr i a) slot (setAddr_bar_self found a) mem low]
  rw [bits j (by omega), if_pos low, getLsbD_allOnes, Bool.eq_iff_iff]
  simp only [Bool.and_eq_true, decide_eq_true_eq]
  omega

theorem barSized_mem64 (high : f.hasBar (i + 1) = true)
    (kind : barKind f i = .mem64) : barSized f i = 2 ^ max 12 (log2 bar.size) := by
  obtain ⟨mem, -, -, empty⟩ := mem_of_mem64 kind
  have inside := bar.log2_lt
  have small : max 12 (log2 bar.size) < 64 := by omega
  obtain ⟨a, written, bits⟩ := pciWriteBar_both slot found high mem empty (allOnes 32) (allOnes 32)
  have placed : (f.setAddr i a).bar i = some { bar with addr := a } := setAddr_bar_self found a
  have placedEmpty : (f.setAddr i a).bar (i + 1) = none := (setAddr_bar_of_ne (succ_ne_self i) a).trans empty
  unfold barSized
  rw [kind]
  dsimp only
  rw [written, pciReadBar_upper (f := f.setAddr i a) high placed placedEmpty]
  refine (maskSize_eq ?_).trans (if_pos small)
  intro j below
  rw [getLsbD_append]
  split
  next below32 =>
    rw [getLsbD_read_mem (f := f.setAddr i a) slot placed mem below32]
    rw [bits j below, if_pos below32, getLsbD_allOnes, Bool.eq_iff_iff]
    simp only [and_eq_true, decide_eq_true_eq]
    omega
  next above =>
    rw [getLsbD_setWidth, getLsbD_ushiftRight, show 32 + (j - 32) = j by omega, bits j below,
      if_neg above, getLsbD_allOnes, Bool.eq_iff_iff]
    simp only [and_eq_true, decide_eq_true_eq]
    omega

end Sizes

section Places
variable {f : BarFunc} {i : Nat} {bar : Bar} {a : Addr} (slot : f.hasBar i = true) (found : f.bar i = some bar)
include slot found

theorem barPlace_mem64 (high : f.hasBar (i + 1) = true)
    (kind : barKind f i = .mem64) (aligned : 2 ^ max 12 (log2 bar.size) ∣ a.toNat) :
    barPlace f i a = f.setAddr i a := by
  obtain ⟨mem, -, -, empty⟩ := mem_of_mem64 kind
  obtain ⟨b, written, bits⟩ :=
    pciWriteBar_both slot found high mem empty (a.setWidth 32) ((a >>> 32).setWidth 32)
  have clear := (dvd_toNat_iff a _).mp aligned
  unfold barPlace
  rw [kind]
  dsimp only
  rw [written]
  congr 1
  apply eq_of_getLsbD_eq
  intro j below
  rw [bits j below, getLsbD_setWidth, getLsbD_setWidth]
  by_cases small : j < max 12 (log2 bar.size)
  · rw [clear j small]
    split
    · simp
    next above =>
      have later : ¬ log2 bar.size ≤ j := by omega
      simp [later]
  · have page : 12 ≤ j := by omega
    have size : log2 bar.size ≤ j := by omega
    split
    next below32 => simp [page, size, below32]
    next above => simp [size, show j - 32 < 32 by omega, show 32 + (j - 32) = j by omega]

theorem barPlace_mem32 (kind : barKind f i = .mem32)
    (lower : bar.addr.toNat < 2 ^ 32) (aligned : 2 ^ max 12 (log2 bar.size) ∣ a.toNat)
    (small : a.toNat < 2 ^ 32) :
    barPlace f i a = f.setAddr i a := by
  obtain ⟨mem, -⟩ := mem_of_mem32 kind
  obtain ⟨b, written, bits⟩ := pciWriteBar_mem slot found mem (a.setWidth 32)
  have clear := (dvd_toNat_iff a _).mp aligned
  unfold barPlace
  rw [kind]
  dsimp only
  rw [written]
  congr 1
  apply eq_of_getLsbD_eq
  intro j below
  rw [bits j below, getLsbD_setWidth]
  by_cases low : j < 32
  · rw [if_pos low, decide_eq_true low, Bool.true_and]
    by_cases inside : j < max 12 (log2 bar.size)
    · simp [clear j inside]
    · simp [show 12 ≤ j by omega, show log2 bar.size ≤ j by omega]
  · rw [if_neg low, getLsbD_of_small lower (Nat.le_of_not_lt low), getLsbD_of_small small (Nat.le_of_not_lt low),
      Bool.and_false]

theorem barPlace_io (kind : barKind f i = .io)
    (window : 2 ^ log2 bar.size ∣ f.ioAddr.toNat) (aligned : 2 ^ max 2 (log2 bar.size) ∣ a.toNat)
    (small : a.toNat < 2 ^ 32) : barPlace f i a = f.setAddr i (f.ioAddr + a) := by
  have clear := (dvd_toNat_iff a _).mp aligned
  have same : (a.setWidth 32 &&& ~~~ 0x3#32).setWidth 64 = a := by
    apply eq_of_getLsbD_eq
    intro j below
    rw [getLsbD_setWidth]
    by_cases low : j < 32
    · rw [getLsbD_clear_port _ low, getLsbD_setWidth]
      by_cases inside : j < 2
      · simp [clear j (by omega)]
      · simp [below, low, show 2 ≤ j by omega]
    · rw [getLsbD_of_ge _ j (Nat.le_of_not_lt low), Bool.and_false]
      exact (getLsbD_of_small small (Nat.le_of_not_lt low)).symm
  have own : 2 ^ log2 bar.size ∣ a.toNat := dvd_trans (pow_dvd_pow 2 (le_max_right 2 _)) aligned
  unfold barPlace
  rw [kind]
  rw [pciWriteBar_io slot found (isIo_of_io kind), same, alignDown_add a bar.log2_lt window,
    (alignDown_eq_self_iff a bar.log2_lt).mpr own]

end Places

section Types
variable {f : BarFunc} {i : Nat} {bar : Bar}

theorem BarsAligned.setAddr (aligned : BarsAligned f) (i : Nat) (a : Addr)
    (mem : f.isIo i = false → 2 ^ 12 ∣ a.toNat) (io : f.isIo i = true → 2 ^ 2 ∣ a.toNat) :
    BarsAligned (f.setAddr i a) := by
  have placed {j : Nat} {bar : Bar} (found : (f.setAddr i a).bar j = some bar) :
      (j = i ∧ bar.addr = a) ∨ f.bar j = some bar := by
    by_cases same : j = i
    · subst same
      have found : (update f.bar j ((f.bar j).map fun bar => { bar with addr := a })) j = some bar :=
        found
      rw [update_self] at found
      obtain ⟨before, -, rfl⟩ := map_eq_some_iff.mp found
      exact .inl ⟨rfl, rfl⟩
    · rw [setAddr_bar_of_ne same] at found
      exact .inr found
  refine ⟨aligned.window, ?_, ?_⟩
  · intro j bar found kind
    rcases placed found with ⟨rfl, rfl⟩ | before
    · exact mem kind
    · exact aligned.mem j bar before kind
  · intro j bar found kind
    rcases placed found with ⟨rfl, rfl⟩ | before
    · exact io kind
    · exact aligned.io j bar before kind

variable {g : Nat}

theorem dvd_bitReplace_high {addr : Addr} (small : g ≤ 32) (aligned : 2 ^ g ∣ addr.toNat)
    (field : Addr) :
    2 ^ g ∣ (bitReplace addr 32 32 field).toNat := by
  rw [dvd_toNat_iff] at aligned ⊢
  intro j below
  rw [getLsbD_bitReplace _ _ _ _ _ (by omega), if_neg (by omega)]
  exact aligned j below

theorem dvd_clear (val : Reg) (small : g < 32) :
    2 ^ g ∣ ((val &&& ~~~ ofNat 32 (2 ^ g - 1)).setWidth 64).toNat := by
  rw [dvd_toNat_iff]
  intro j below
  rw [getLsbD_setWidth, getLsbD_clear val g (by omega)]
  simp [below]

theorem dvd_bitReplace_low (addr : Addr) {field : Addr} (small : g ≤ 32)
    (aligned : 2 ^ g ∣ field.toNat) :
    2 ^ g ∣ (bitReplace addr 0 32 field).toNat := by
  rw [dvd_toNat_iff] at aligned ⊢
  intro j below
  rw [getLsbD_bitReplace _ _ _ _ _ (by omega), if_pos (by omega)]
  exact aligned j below

theorem pciWriteBar_aligned (aligned : BarsAligned f) (i : Nat) (val : Reg) :
    BarsAligned (pciWriteBar f i val) := by
  unfold pciWriteBar
  split
  · split
    · exact aligned
    next bar found =>
      rw [bitNextPow2_eq bar.pos]
      refine aligned.setAddr _ _ (fun mem => dvd_alignDown bar.log2_lt ?_) (fun io => dvd_alignDown bar.log2_lt ?_)
      · unfold pciBarWritten
        split
        · exact dvd_bitReplace_high (by decide) (aligned.mem _ bar found mem) _
        next lower =>
          rw [pciEffectiveBar, if_neg lower] at mem
          rw [if_neg (by rw [mem]; decide)]
          exact dvd_bitReplace_low _ (by decide) (dvd_clear val (by decide))
      · unfold pciBarWritten
        split
        · exact dvd_bitReplace_high (by decide) (aligned.io _ bar found io) _
        next lower =>
          rw [pciEffectiveBar, if_neg lower] at io
          rw [if_pos io, toNat_add, dvd_mod_iff (by decide)]
          exact dvd_add aligned.window (dvd_clear val (by decide))
  · split <;> exact ⟨aligned.window, aligned.mem, aligned.io⟩

def barType (f : BarFunc) (i size : Nat) : Reg :=
  if f.isIo i then 0x1 else (if pciBarIs64bit f i then 0x4#32 else 0) ||| (if 0x08000000 ≤ size then 0x8#32 else 0)

theorem pciReadBar_type (aligned : BarsAligned f) (slot : f.hasBar i = true) (found : f.bar i = some bar) :
    pciReadBar f i &&& barTypeMask f i = barType f i bar.size := by
  have low {x : Addr} {g : Nat} (clear : 2 ^ g ∣ x.toNat) :
    x.setWidth 32 &&& ofNat 32 (2 ^ g - 1) = 0#32 := by
    apply eq_of_getLsbD_eq
    intro j _
    rw [getLsbD_and, getLsbD_ofNat, testBit_two_pow_sub_one, getLsbD_zero]
    by_cases below : j < g
    · simp [(dvd_toNat_iff x g).mp clear j below]
    · simp [below]
  rw [pciReadBar_own slot found]
  unfold barTypeMask barType
  cases kind : f.isIo i with
  | true =>
    have own := aligned.io i bar found kind
    have window := aligned.window
    have port : 2 ^ 2 ∣ (bar.addr - f.ioAddr).toNat := by
      rw [toNat_sub]
      omega
    have clear : (bar.addr - f.ioAddr).setWidth 32 &&& 0x3#32 = 0#32 := low port
    change (_ ||| 0x1#32) &&& 0x3#32 = 0x1#32
    rw [and_or_distrib_right, clear]
    decide
  | false =>
    have own : 2 ^ 4 ∣ bar.addr.toNat := dvd_trans (by decide) (aligned.mem i bar found kind)
    have clear : bar.addr.setWidth 32 &&& 0xF#32 = 0#32 := low own
    change (_ ||| _ ||| _) &&& 0xF#32 = _
    rw [and_or_distrib_right, and_or_distrib_right, clear]
    split <;> split <;> decide

/-- A region has the same type in every state its registers can be in. -/
theorem barType_sameLayout {f' : BarFunc} (same : SameLayout f f') (i size : Nat) :
    barType f' i size = barType f i size := by
  unfold barType
  rw [same.isIo, same.wide]

theorem barTypes (aligned : BarsAligned f) (slot : f.hasBar i = true) (found : f.bar i = some bar) (j : Nat)
    (val : Reg) : pciReadBar (pciWriteBar f j val) i &&& barTypeMask f i = pciReadBar f i &&& barTypeMask f i := by
  have same := pciWriteBar_sameLayout f j val
  obtain ⟨bar', found', size⟩ := same.found found
  have after := pciReadBar_type (pciWriteBar_aligned aligned j val) (same.hasBar i ▸ slot) found'
  rw [barType_sameLayout same, size, barTypeMask, same.isIo] at after
  rw [pciReadBar_type aligned slot found]
  exact after

end Types

section Answers
variable {f : BarFunc} {i : Nat} {bar : Bar}

theorem sizeOk_iff (bar : Bar) (g : Nat) : SizeOk (2 ^ g) bar.size ↔ bar.size ≤ 2 ^ max g (log2 bar.size) := by
  have least : 2 ^ log2 bar.size ≤ bar.size := log2_self_le (ne_of_gt bar.pos)
  unfold SizeOk
  by_cases small : g ≤ log2 bar.size
  · rw [max_eq_right small]
    have below : 2 ^ g ≤ 2 ^ Nat.log2 bar.size := Nat.pow_le_pow_right (by decide) small
    omega
  · rw [Nat.max_eq_left (Nat.le_of_not_le small)]
    have below : 2 ^ Nat.log2 bar.size ≤ 2 ^ g := Nat.pow_le_pow_right (by decide) (Nat.le_of_not_le small)
    omega

theorem log2_lt_of_le (small : bar.size ≤ 2 ^ 31) : log2 bar.size < 32 :=
  (log2_lt (ne_of_gt bar.pos)).mpr (by omega)

theorem BarLayout.answers (aligned : BarsAligned f) (found : f.bar i = some bar) (layout : BarLayout f i bar) :
    BarAnswers f i bar := by
  obtain ⟨slot, layout⟩ := layout
  cases kind : barKind f i with
  | io =>
    rw [kind] at layout
    obtain ⟨ok, small, window, -⟩ := layout
    have inside : max 2 (log2 bar.size) < 32 := by have := log2_lt_of_le small; omega
    have sized := (barSized_io slot found kind window).trans (if_pos inside)
    refine ⟨⟨_, sized, (sizeOk_iff bar 2).mp ok⟩, fun j _ => barTypes aligned slot found j, ?_⟩
    intro a fits below
    rw [sized] at fits
    rw [barPlace_io slot found kind window fits (below (by rw [kind]; decide)), barTarget, kind]
  | mem32 =>
    rw [kind] at layout
    obtain ⟨ok, small, lower⟩ := layout
    have inside : max 12 (log2 bar.size) < 32 := by have := log2_lt_of_le small; omega
    have sized := (barSized_mem32 slot found kind).trans (if_pos inside)
    refine ⟨⟨_, sized, (sizeOk_iff bar 12).mp ok⟩, fun j _ => barTypes aligned slot found j, ?_⟩
    intro a fits below
    rw [sized] at fits
    rw [barPlace_mem32 slot found kind lower fits (below (by rw [kind]; decide)), barTarget, kind]
  | mem64 =>
    rw [kind] at layout
    obtain ⟨ok, high⟩ := layout
    have sized := barSized_mem64 slot found high kind
    refine ⟨⟨_, sized, (sizeOk_iff bar 12).mp ok⟩, fun j _ => barTypes aligned slot found j, ?_⟩
    intro a fits _
    rw [sized] at fits
    rw [barPlace_mem64 slot found high kind fits, barTarget, kind]

theorem BarLayouts.absent (layouts : BarLayouts f) {j : Nat} (inside : j < 6) (slot : f.hasBar j = true)
    (empty : f.bar j = none) (alone : ¬ (0 < j ∧ (f.bar (j - 1)).isSome ∧ f.isIo (j - 1) = false)) (val : Reg) :
    pciWriteBar f j val = f := by
  have lower : pciBarIsUpperHalf f j = false := by
    rw [eq_false_iff]
    intro upper
    simp only [pciBarIsUpperHalf, and_eq_true, bne_iff_ne] at upper
    obtain ⟨⟨first, -⟩, before⟩ := upper
    obtain ⟨bar, found⟩ := isSome_iff_exists.mp before
    have io : f.isIo (j - 1) = true := by
      by_contra mem
      exact alone ⟨pos_of_ne_zero first, before, eq_false_iff.mpr mem⟩
    have kind : barKind f (j - 1) = .io := if_pos io
    have layout := (layouts (j - 1) bar found).2
    rw [kind] at layout
    have taken := layout.2.2.2
    rw [Nat.sub_add_cancel (Nat.pos_of_ne_zero first), empty] at taken
    cases taken inside slot
  unfold pciWriteBar pciEffectiveBar
  rw [if_pos slot, lower, if_neg nofun, empty]

theorem BarLayouts.protocol (aligned : BarsAligned f) (layouts : BarLayouts f) : BarProtocol f where
  answers := fun i bar found => (layouts i bar found).answers aligned found
  absent := fun _ inside slot empty alone val => layouts.absent inside slot empty alone val

theorem barSized_lt (f : BarFunc) (i : Nat) :
    barSized f i < 2 ^ 64 ∧ (barKind f i ≠ .mem64 → barSized f i < 2 ^ 32) := by
  have narrow (mask : Reg) : maskSize mask < 2 ^ 32 := isLt _
  have wide (mask : Addr) : maskSize mask < 2 ^ 64 := isLt _
  unfold barSized
  cases barKind f i with
  | io | mem32 => exact ⟨lt_trans (narrow _) (by decide), fun _ => narrow _⟩
  | mem64 => exact ⟨wide _, fun other => absurd rfl other⟩

theorem pciWriteBar_bar (without : f.hasBar i = false) (val : Reg) : (pciWriteBar f i val).bar = f.bar := by
  unfold pciWriteBar
  rw [without, if_neg nofun]
  split <;> rfl

theorem hasBar_of_succ (slot : f.hasBar (i + 1) = true) : f.hasBar i = true := by
  simp only [BarFunc.hasBar, or_eq_true, decide_eq_true_eq] at slot ⊢
  exact slot.imp_right (by omega)

theorem sizeOk_of_sized {g m : Nat} (shift : m = max g (log2 bar.size)) {k : Nat}
    (sized : (if m < 32 then 2 ^ m else 0) = 2 ^ k) (covers : bar.size ≤ 2 ^ k) :
    SizeOk (2 ^ g) bar.size ∧ bar.size ≤ 2 ^ 31 := by
  have positive : 0 < 2 ^ k := Nat.two_pow_pos k
  split at sized
  next inside =>
    rw [← sized] at covers
    refine ⟨(sizeOk_iff bar g).mpr (shift ▸ covers),
      Nat.le_trans covers (Nat.pow_le_pow_right (by decide) (by omega))⟩
  · omega

/-- A port register must not be followed by an empty one. -/
theorem BarProtocol.next_taken (protocol : BarProtocol f) (found : f.bar i = some bar) (kind : barKind f i = .io)
    (inside : i + 1 < 6) (slot : f.hasBar (i + 1) = true) : (f.bar (i + 1)).isSome := by
  by_contra missing
  have empty : f.bar (i + 1) = none := not_isSome_iff_eq_none.mp missing
  have io := isIo_of_io kind
  have same (val : Reg) := protocol.absent (i + 1) inside slot empty (by simp [io]) val
  have top (val : Reg) : bar.addr.getLsbD 63 = val.getLsbD 31 := by
    have written := pciWriteBar_upper slot found empty val
    rw [same val] at written
    have placed := setAddr_bar_self found
      (alignDown (bitReplace bar.addr 32 32 (val.setWidth 64)) (log2 bar.size))
    rw [← written, found] at placed
    have addr : bar.addr = alignDown (bitReplace bar.addr 32 32 (val.setWidth 64)) (log2 bar.size) :=
      congrArg Bar.addr (some.inj placed)
    have bit := getLsbD_high bar.log2_lt bar.addr val (show 63 < 64 by decide)
    have size : log2 bar.size ≤ 63 := le_of_lt_succ bar.log2_lt
    rw [← addr, decide_eq_true size] at bit
    exact bit
  have different : (0#32).getLsbD 31 = (allOnes 32).getLsbD 31 := (top _).symm.trans (top _)
  cases different

variable (answers : BarAnswers f i bar) (found : f.bar i = some bar)
include answers found

theorem BarAnswers.placed {a : Addr}
    (aligned : barSized f i ∣ a.toNat) (small : barKind f i ≠ .mem64 → a.toNat < 2 ^ 32) :
    (barPlace f i a).bar i = some { bar with addr := barTarget f i a } := by
  rw [answers.relocates a aligned small]
  exact setAddr_bar_self found _

theorem BarAnswers.placed_zero :
    (barPlace f i 0).bar i = some { bar with addr := barTarget f i 0 } :=
  answers.placed found (dvd_zero _) fun _ => by decide

theorem BarAnswers.hasBar : f.hasBar i = true := by
  by_contra without
  have without := eq_false_iff.mpr without
  have above : f.hasBar (i + 1) = false := eq_false_iff.mpr fun slot => by
    rw [hasBar_of_succ slot] at without
    cases without
  have stays (a : Addr) : (barPlace f i a).bar i = some bar := by
    unfold barPlace
    split
    · rw [pciWriteBar_bar without, found]
    · rw [pciWriteBar_bar without, found]
    · have next := ((pciWriteBar_sameLayout f i (a.setWidth 32)).hasBar (i + 1)).trans above
      rw [pciWriteBar_bar next, pciWriteBar_bar without, found]
  obtain ⟨k, sized, -⟩ := answers.sizes
  obtain ⟨bound, bound32⟩ := barSized_lt f i
  have value : (ofNat 64 (2 ^ k)).toNat = 2 ^ k := mod_eq_of_lt (sized ▸ bound)
  have zero := (stays 0).symm.trans (answers.placed_zero found)
  have other := (stays (ofNat 64 (2 ^ k))).symm.trans
    (answers.placed found (by rw [value, sized]) fun narrow => by rw [value, ← sized]; exact bound32 narrow)
  have same : barTarget f i 0 = barTarget f i (ofNat 64 (2 ^ k)) := by
    have addr := some.inj (zero.symm.trans other)
    exact congrArg Bar.addr addr
  have positive : 0 < 2 ^ k := Nat.two_pow_pos k
  have equal : (0 : Addr) = ofNat 64 (2 ^ k) := by
    unfold barTarget at same
    split at same
    · exact (BitVec.add_right_inj f.ioAddr).mp same
    · exact same
    · exact same
  have nat := congrArg BitVec.toNat equal
  rw [value] at nat
  change 0 = 2 ^ k at nat
  omega

variable (slot : f.hasBar i = true)
include slot

theorem BarAnswers.layout_io (kind : barKind f i = .io) :
    SizeOk 4 bar.size ∧ bar.size ≤ 2 ^ 31 ∧ 2 ^ log2 bar.size ∣ f.ioAddr.toNat := by
  have window : 2 ^ log2 bar.size ∣ f.ioAddr.toNat := by
    have zero := answers.placed_zero found
    unfold barPlace barTarget at zero
    rw [kind] at zero
    rw [pciWriteBar_io slot found (isIo_of_io kind), setAddr_bar_self found] at zero
    have addr := congrArg Bar.addr (some.inj zero)
    have port : ((0 : Addr).setWidth 32 &&& ~~~ 0x3#32).setWidth 64 = 0#64 := by decide
    rw [port, BitVec.add_zero] at addr
    exact (alignDown_eq_self_iff f.ioAddr bar.log2_lt).mp (addr.trans (BitVec.add_zero f.ioAddr))
  obtain ⟨k, sized, covers⟩ := answers.sizes
  rw [barSized_io slot found kind window] at sized
  obtain ⟨ok, small⟩ := sizeOk_of_sized rfl sized covers
  exact ⟨ok, small, window⟩

theorem BarAnswers.layout_mem32 (kind : barKind f i = .mem32) :
    SizeOk 0x1000 bar.size ∧ bar.size ≤ 2 ^ 31 ∧ bar.addr.toNat < 2 ^ 32 := by
  obtain ⟨k, sized, covers⟩ := answers.sizes
  rw [barSized_mem32 slot found kind] at sized
  obtain ⟨ok, small⟩ := sizeOk_of_sized rfl sized covers
  refine ⟨ok, small, ?_⟩
  have zero := answers.placed_zero found
  unfold barPlace barTarget at zero
  rw [kind] at zero
  obtain ⟨a, written, bits⟩ := pciWriteBar_mem slot found (mem_of_mem32 kind).1 ((0 : Addr).setWidth 32)
  rw [written, setAddr_bar_self found] at zero
  have addr : a = 0 := congrArg Bar.addr (some.inj zero)
  have narrow := log2_lt_of_le small
  refine small_of_same (y := 0) (fun j below high => ?_) (by decide)
  have bit := bits j below
  rw [addr, if_neg (Nat.not_lt_of_le high), decide_eq_true (show Nat.log2 bar.size ≤ j by omega)] at bit
  exact bit.symm

theorem BarAnswers.layout_mem64 (kind : barKind f i = .mem64) :
    SizeOk 0x1000 bar.size ∧ f.hasBar (i + 1) = true := by
  obtain ⟨k, sized, covers⟩ := answers.sizes
  have high : f.hasBar (i + 1) = true := by
    by_contra without
    have without := eq_false_iff.mpr without
    -- the upper half of the address stays what it was, so it cannot be both of two values
    have top (a : Addr) (aligned : barSized f i ∣ a.toNat) :
        a.getLsbD 63 = (decide (log2 bar.size ≤ 63) && bar.addr.getLsbD 63) := by
      have placed := answers.placed found aligned fun narrow => absurd kind narrow
      obtain ⟨b, written, bits⟩ := pciWriteBar_mem slot found (mem_of_mem64 kind).1 (a.setWidth 32)
      unfold barPlace barTarget at placed
      rw [kind] at placed
      have next := ((pciWriteBar_sameLayout f i (a.setWidth 32)).hasBar (i + 1)).trans without
      rw [pciWriteBar_bar next, written, setAddr_bar_self found] at placed
      have addr : b = a := congrArg Bar.addr (some.inj placed)
      exact addr ▸ bits 63 (by decide)
    have inside : k < 64 := (Nat.pow_lt_pow_iff_right (by decide)).mp (sized ▸ (barSized_lt f i).1)
    have zero := top 0 (dvd_zero _)
    have divides : 2 ^ k ∣ 2 ^ 63 := pow_dvd_pow 2 (by omega)
    have half := top (ofNat 64 (2 ^ 63)) (by rw [sized]; exact divides)
    rw [← zero] at half
    cases half
  rw [barSized_mem64 slot found high kind] at sized
  exact ⟨(sizeOk_iff bar 12).mpr (sized ▸ covers), high⟩

end Answers

theorem BarProtocol.layouts {f : BarFunc} (protocol : BarProtocol f) : BarLayouts f := by
  intro i bar found
  have answers := protocol.answers i bar found
  have slot := answers.hasBar found
  refine ⟨slot, ?_⟩
  cases kind : barKind f i with
  | io =>
    obtain ⟨ok, small, window⟩ := answers.layout_io found slot kind
    exact ⟨ok, small, window, protocol.next_taken found kind⟩
  | mem32 => exact answers.layout_mem32 found slot kind
  | mem64 => exact answers.layout_mem64 found slot kind

section Runs
open Runs
variable {f : BarFunc} {i : Nat} {bar bar' : Bar} {j : Nat}

theorem pciWriteBar_other (other : i ≠ pciEffectiveBar f j) (val : Reg) :
    (pciWriteBar f j val).bar i = f.bar i := by
  unfold pciWriteBar
  split
  · split
    · rfl
    · exact setAddr_bar_of_ne other _
  · split <;> rfl

theorem pciWriteBar_upper_half (inside : j < 6) (val : Reg) (slot : f.hasBar i = true)
    (found : f.bar i = some bar) (found' : (pciWriteBar f j val).bar i = some bar') (kind : barKind f i = .mem32)
    (small : bar.size ≤ 2 ^ 31) : bar'.addr.toNat < 2 ^ 32 ↔ bar.addr.toNat < 2 ^ 32 := by
  obtain ⟨mem, narrow⟩ := mem_of_mem32 kind
  by_cases own : j = i
  · subst own
    obtain ⟨a, written, bits⟩ := pciWriteBar_mem slot found mem val
    rw [written, setAddr_bar_self found] at found'
    obtain rfl := some.inj found'
    have less := log2_lt_of_le small
    have same (k : Nat) (within : k < 64) (high : 32 ≤ k) : a.getLsbD k = bar.addr.getLsbD k := by
      rw [bits k within, if_neg (Nat.not_lt_of_le high), decide_eq_true (by omega), Bool.true_and]
    exact ⟨small_of_same fun k within high => (same k within high).symm, small_of_same same⟩
  · have other : i ≠ pciEffectiveBar f j := by
      unfold pciEffectiveBar
      split
      next upper =>
        rintro rfl
        simp only [pciBarIsUpperHalf, and_eq_true, bne_iff_ne] at upper
        obtain ⟨⟨first, empty⟩, before⟩ := upper
        have back : j - 1 + 1 = j := Nat.sub_add_cancel (Nat.pos_of_ne_zero first)
        simp [pciBarIs64bit, back, inside, before, empty] at narrow
      · exact Ne.symm own
    rw [pciWriteBar_other other, found] at found'
    obtain rfl := some.inj found'
    exact Iff.rfl

theorem BarLayouts.of_same {f' : BarFunc} (layouts : BarLayouts f) (same : SameLayout f f')
    (upper : ∀ i bar bar', f.bar i = some bar → f'.bar i = some bar' → f.hasBar i = true → barKind f i = .mem32 →
      bar.size ≤ 2 ^ 31 → bar.addr.toNat < 2 ^ 32 → bar'.addr.toNat < 2 ^ 32) : BarLayouts f' := by
  intro i bar' found'
  obtain ⟨bar, found, size⟩ := same.symm.found found'
  obtain ⟨slot, layout⟩ := layouts i bar found
  refine ⟨(same.hasBar i).trans slot, ?_⟩
  rw [same.kind, ← size]
  cases kind : barKind f i with
  | io =>
    rw [kind] at layout
    obtain ⟨ok, small, window, next⟩ := layout
    refine ⟨ok, small, same.ioAddr ▸ window, ?_⟩
    rw [same.hasBar, same.isSome]
    exact next
  | mem32 =>
    rw [kind] at layout
    obtain ⟨ok, small, lower⟩ := layout
    exact ⟨ok, small, upper i bar bar' found found' slot kind small lower⟩
  | mem64 =>
    rw [kind] at layout
    exact ⟨layout.1, (same.hasBar (i + 1)).trans layout.2⟩

theorem pciWriteBar_layouts_iff (inside : j < 6) (val : Reg) :
    BarLayouts (pciWriteBar f j val) ↔ BarLayouts f := by
  have same := pciWriteBar_sameLayout f j val
  constructor
  · intro layouts
    refine layouts.of_same same.symm fun i bar' bar found' found slot kind small => ?_
    rw [same.hasBar] at slot
    rw [same.kind] at kind
    have size : bar'.size = bar.size := by
      obtain ⟨after, foundAfter, size⟩ := same.found found
      obtain rfl := some.inj (found'.symm.trans foundAfter)
      exact size
    exact (pciWriteBar_upper_half inside val slot found found' kind (size ▸ small)).mp
  · intro layouts
    refine layouts.of_same same fun i bar bar' found found' slot kind small => ?_
    exact (pciWriteBar_upper_half inside val slot found found' kind small).mpr

def barStep (f : BarFunc) (write : Fin 6 × Reg) : BarFunc := pciWriteBar f write.1.val write.2

/-- In whatever state configuration writes leave them, the registers keep the protocol exactly
when the regions are laid out for it. -/
theorem bar_protocol_iff (aligned : BarsAligned f) (writes : List (Fin 6 × Reg)) :
    BarProtocol (final barStep f writes) ↔ BarLayouts f := by
  induction writes generalizing f with
  | nil => exact ⟨BarProtocol.layouts, BarLayouts.protocol aligned⟩
  | cons write writes ih =>
    exact (ih (pciWriteBar_aligned aligned write.1.val write.2)).trans
      (pciWriteBar_layouts_iff write.1.isLt write.2)

end Runs

def oneBar (bar : Bar) (barIoMask : BitVec 8) : BarFunc where
  addr := 8
  bridge := false
  barIoMask := barIoMask
  ioAddr := 0x03000000
  bar := fun i => if i = 0 then some bar else none
  within := fun _ outside => if_neg (by omega)
  bridgeIo := 0
  bridgeMem := 0

theorem bar_protocol_iff_oneBar :
    let f := oneBar ⟨0x40000000, 0x4000, by decide, by decide⟩ 0
    BarsAligned f ∧ (BarProtocol (Runs.final barStep f [(0, 0xFFFFFFFF#32)]) ↔ BarLayouts f) := by
  intro f
  have aligned : BarsAligned f := by
    refine ⟨by decide, ?_, ?_⟩
    · intro i bar found _
      have found : (if i = 0 then some _ else none) = some bar := found
      split at found
      · obtain rfl := some.inj found
        decide
      · cases found
    · intro i bar _ io
      exact absurd io (by simp [BarFunc.isIo, f, oneBar])
  exact ⟨aligned, bar_protocol_iff aligned _⟩

def oddSize : BarFunc := oneBar ⟨0x40000000, 0x1800, by decide, by decide⟩ 0

def portsAlone : BarFunc := oneBar ⟨0x03000000, 8, by decide, by decide⟩ 1

/-- A region of six kilobytes shows as four, and a write to a register that is not there moves
ports out of their window. -/
theorem bar_protocol_broken :
    (barSized oddSize 0 = 0x1000 ∧ ¬ BarProtocol oddSize) ∧
      ((pciWriteBar portsAlone 1 1).bar 0).map Bar.addr = some 0x103000000 ∧ ¬ BarProtocol portsAlone := by
  have shown : barSized oddSize 0 = 0x1000 := by decide +kernel
  have moved : ((pciWriteBar portsAlone 1 1).bar 0).map Bar.addr = some 0x103000000 := by decide +kernel
  refine ⟨⟨shown, ?_⟩, moved, ?_⟩
  · intro protocol
    obtain ⟨k, sized, covers⟩ := (protocol.answers 0 _ rfl).sizes
    rw [← sized] at covers
    exact absurd covers (by decide)
  · intro protocol
    have same := protocol.absent 1 (by decide) rfl rfl (by decide) 1
    rw [same] at moved
    exact absurd moved (by decide)

end Rvvm.Pci
