import Rvvm.Cpu.Mmu
import Rvvm.Cpu.Csr

/-! The page-table walk against the walk of the privileged architecture. The level loop follows
the pointers of the tables to one entry and decides on it; so does the architecture. They differ
in what a leaf may encode, and for Sv32 in how much of a physical page number the 32-bit shifts
keep. -/
namespace Rvvm
open Function Option
open BitVec hiding not_or
open BitVec (ofNat)

variable {δ : Type}

/-! Fields of a page-table entry. -/

namespace Pte

def valid (pte : BitVec 64) : Bool := pte.getLsbD 0

def readable (pte : BitVec 64) : Bool := pte.getLsbD 1

def writable (pte : BitVec 64) : Bool := pte.getLsbD 2

def executable (pte : BitVec 64) : Bool := pte.getLsbD 3

def user (pte : BitVec 64) : Bool := pte.getLsbD 4

/-- The encodings reserved for future use: writable pages must be readable. -/
def reserved (pte : BitVec 64) : Bool := !readable pte && writable pte

def leaf (pte : BitVec 64) : Bool := readable pte || executable pte

def pointer (pte : BitVec 64) : Bool := valid pte && !leaf pte && !writable pte

end Pte

theorem Pte.of_pointer {pte : BitVec 64} (followed : Pte.pointer pte = true) :
    Pte.valid pte = true ∧ Pte.leaf pte = false ∧ Pte.reserved pte = false := by
  simp only [Pte.pointer, Bool.and_eq_true, Bool.not_eq_true'] at followed
  obtain ⟨⟨valid, inner⟩, readOnly⟩ := followed
  exact ⟨valid, inner, by rw [Pte.reserved, readOnly, Bool.and_false]⟩

theorem Pte.leaf_of_valid {pte : BitVec 64} (valid : Pte.valid pte = true) (ends : ¬ Pte.pointer pte = true)
    (plain : Pte.reserved pte = false) : Pte.leaf pte = true := by
  unfold Pte.pointer at ends
  unfold Pte.reserved at plain
  unfold Pte.leaf at ends ⊢
  revert ends plain
  rw [valid]
  cases Pte.readable pte <;> cases Pte.writable pte <;> cases Pte.executable pte <;> decide

/-- A paged translation scheme of the privileged architecture. -/
structure Sv where
  levels : Nat
  vpnBits : Nat
  ppnBits : Nat
  /-- The logarithm of the entry size. -/
  pteBits : Nat
  read : HostMem → Addr → BitVec 64
  canonical : Addr → Bool

namespace Sv

def sv32 : Sv where
  levels := 2
  vpnBits := 10
  ppnBits := 22
  pteBits := 2
  read := fun host p => (readUint32Le host p).setWidth 64
  canonical := fun _ => true

/-- Sv39, Sv48 and Sv57 for three, four and five levels: the unused high bits of an address
repeat its top translated bit. -/
def sv64 (levels : Nat) : Sv where
  levels := levels
  vpnBits := 9
  ppnBits := 44
  pteBits := 3
  read := readUint64Le
  canonical := fun va => va == (va.setWidth (levels * 9 + 12)).signExtend 64

variable (sv : Sv)

def offsetBits (i : Nat) : Nat := 12 + i * sv.vpnBits

def vpn (va : Addr) (i : Nat) : Addr := (va >>> sv.offsetBits i) &&& bitMask sv.vpnBits

def ppn (pte : BitVec 64) : Addr := (pte >>> 10) &&& bitMask sv.ppnBits

def entryAddr (table va : Addr) (i : Nat) : Addr := table + (sv.vpn va i <<< sv.pteBits)

def aligned (pte : BitVec 64) (i : Nat) : Bool := sv.ppn pte &&& bitMask (i * sv.vpnBits) == 0

def page (pte : BitVec 64) (i : Nat) (va : Addr) : Addr :=
  ((sv.ppn pte >>> (i * sv.vpnBits)) <<< sv.offsetBits i) ||| (va &&& bitMask (sv.offsetBits i))

end Sv

/-- Whether a leaf permits an access under the effective privilege, `SUM` and `MXR`. -/
def permitted (csr : Csr) (priv : Priv) (access : Access) (pte : BitVec 64) : Bool :=
  (match priv with
    | .user => Pte.user pte
    | _ => !Pte.user pte || (csr.sum && access != .exec)) &&
  (match access with
    | .read => Pte.readable pte || (csr.mxr && Pte.executable pte)
    | .write => Pte.writable pte
    | .exec => Pte.executable pte)

/-- The accessed bit, and the dirty bit for a store, set in the entry at a host pointer: both
are in its first byte. -/
def setAd (host : HostMem) (slot : Addr) (access : Access) : HostMem :=
  update host slot (host slot ||| if access = .write then 0xC0#8 else 0x40#8)

/-- A memory in which the entry already has the bits an access sets. -/
def Marked (host : HostMem) (slot : Addr) (access : Access) : Prop :=
  host slot ||| (if access = .write then 0xC0#8 else 0x40#8) = host slot

namespace Sv
variable (sv : Sv) (vm : Hart δ) (va : Addr) (access : Access)

/-- The architecture's walk from a table, with as many levels left: the leaf's host pointer and
the physical address. -/
def walk (priv : Priv) : Nat → Addr → Option (Addr × Addr)
  | 0, _ => none
  | i + 1, table =>
    match riscvPhysAccess vm.mem (sv.entryAddr table va i) with
    | none => none
    | some slot =>
      let pte := sv.read vm.host slot
      if !Pte.valid pte || Pte.reserved pte then none
      else if Pte.leaf pte then
        if permitted vm.csr priv access pte && sv.aligned pte i then some (slot, sv.page pte i va)
        else none
      else walk priv i (sv.ppn pte <<< 12)

/-- Translation as the architecture has it, with the accessed and dirty bits set by hardware. -/
def translate : Option Addr × HostMem :=
  if sv.canonical va then
    match sv.walk vm va access (vm.effectivePriv access.mask) sv.levels vm.rootPageTable with
    | none => (none, vm.host)
    | some (slot, paddr) => (some paddr, setAd vm.host slot access)
  else (none, vm.host)

/-- The entry that pointers lead to from a table, its level and host pointer, when only the low
`kept` bits of a table's address are followed. -/
def find (kept : Nat) : Nat → Addr → Option (Nat × Addr)
  | 0, _ => none
  | i + 1, table =>
    match riscvPhysAccess vm.mem (sv.entryAddr table va i) with
    | none => none
    | some slot =>
      if Pte.pointer (sv.read vm.host slot) then
        find kept i ((sv.ppn (sv.read vm.host slot) <<< 12) &&& bitMask kept)
      else some (i, slot)

/-- The entry found is a valid, aligned leaf that permits the access, reserved or not. -/
def Grants (last : Nat × Addr) : Prop :=
  let pte := sv.read vm.host last.2
  Pte.valid pte ∧ Pte.leaf pte ∧ permitted vm.csr (vm.effectivePriv access.mask) access pte ∧
    sv.aligned pte last.1

instance (last : Nat × Addr) : Decidable (sv.Grants vm access last) := by
  unfold Grants
  infer_instance

def foundPage (last : Nat × Addr) : Addr := sv.page (sv.read vm.host last.2) last.1 va

def Reserved (last : Nat × Addr) : Prop := Pte.reserved (sv.read vm.host last.2)

instance (last : Nat × Addr) : Decidable (sv.Reserved vm last) := by
  unfold Reserved
  infer_instance

end Sv

/-! Host memory behind an entry. -/

/-- A little-endian word holds the bytes from a pointer on. -/
def Spells (host : HostMem) (p : Addr) {w : Nat} (word : BitVec w) : Prop :=
  ∀ b, b < w → word.getLsbD b = (host (p + ofNat 64 (b / 8))).getLsbD (b % 8)

theorem Spells.append {host : HostMem} {p : Addr} {m n : Nat} {low : BitVec m} {high : BitVec n}
    (whole : m % 8 = 0) (first : Spells host p low)
    (second : Spells host (p + ofNat 64 (m / 8)) high) : Spells host p (high ++ low) := by
  intro b below
  rw [getLsbD_append]
  by_cases inLow : b < m
  · rw [if_pos inLow]
    exact first b inLow
  · have offset : m / 8 + (b - m) / 8 = b / 8 := by omega
    have bit : (b - m) % 8 = b % 8 := by omega
    rw [if_neg inLow, second (b - m) (by omega), bit, BitVec.add_assoc, ← BitVec.ofNat_add, offset]

section Words
variable (host : HostMem) (p : Addr)

theorem byte_spells : Spells host p (host p) := by
  intro b below
  rw [Nat.div_eq_of_lt below, Nat.mod_eq_of_lt below, BitVec.add_zero]

theorem readUint16Le_spells : Spells host p (readUint16Le host p) :=
  .append rfl (byte_spells host p) (byte_spells host (p + 1))

theorem readUint32Le_spells : Spells host p (readUint32Le host p) :=
  .append rfl (readUint16Le_spells host p) (readUint16Le_spells host (p + 2))

theorem readUint64Le_spells : Spells host p (readUint64Le host p) :=
  .append rfl (readUint32Le_spells host p) (readUint32Le_spells host (p + 4))

end Words

theorem Spells.leByte {host : HostMem} {p : Addr} {w : Nat} {word : BitVec w} (spells : Spells host p word)
    (fits : w ≤ 64) {i : Addr} (inside : 8 * i.toNat + 8 ≤ w) :
    Rvvm.leByte (word.setWidth 64) i = host (p + i) := by
  apply eq_of_getLsbD_eq
  intro b below
  have address : ofNat 64 ((8 * i.toNat + b) / 8) = i := by
    rw [show (8 * i.toNat + b) / 8 = i.toNat by omega, ofNat_toNat, setWidth_eq]
  have bit : (8 * i.toNat + b) % 8 = b := by omega
  simp only [Rvvm.leByte, getLsbD_setWidth, getLsbD_ushiftRight, below, decide_true,
    Bool.true_and, show 8 * i.toNat + b < 64 by omega]
  rw [spells _ (by omega), address, bit]

theorem leByte_or (x y : BitVec 64) (i : Addr) : leByte (x ||| y) i = leByte x i ||| leByte y i := by
  apply eq_of_getLsbD_eq
  intro b below
  simp [leByte, getLsbD_ushiftRight, getLsbD_or, below]

theorem leByte_small {x : BitVec 64} (small : x.toNat < 256) {i : Addr} (later : i ≠ 0) :
    leByte x i = 0 := by
  have positive : 0 < i.toNat := by
    rcases Nat.eq_zero_or_pos i.toNat with zero | positive
    · exact absurd (eq_of_toNat_eq zero) later
    · exact positive
  have shifted : x >>> (8 * i.toNat) = 0 := by
    apply eq_of_toNat_eq
    rw [toNat_ushiftRight, Nat.shiftRight_eq_div_pow]
    refine Nat.div_eq_of_lt (small.trans_le ?_)
    calc 256 = 2 ^ 8 := rfl
      _ ≤ 2 ^ (8 * i.toNat) := Nat.pow_le_pow_right (by decide) (by omega)
  rw [leByte, shifted]
  rfl

section Rewrite
variable {host : HostMem} {p : Addr} {w : Nat} {word : BitVec w} {size : Addr}

section
variable (spells : Spells host p word) (fits : w ≤ 64) (bytes : w = 8 * size.toNat)
include spells fits bytes

theorem write_back :
    host.write p (leByte (word.setWidth 64)) size = host := by
  funext q
  rw [HostMem.write_apply]
  split
  case isTrue inside =>
    have below : (q - p).toNat < size.toNat := inside
    rw [spells.leByte fits (by omega), BitVec.add_comm, BitVec.sub_add_cancel]
  case isFalse => rfl

theorem write_setAd
    (nonempty : 0 < size.toNat) {access : Access} {mask : BitVec 64}
    (dirty : mask &&& 0x4#64 = if access = .write then 0x4#64 else 0#64) :
    host.write p (leByte (pteAd (word.setWidth 64) mask)) size = setAd host p access := by
  have bits : pteAd (word.setWidth 64) mask =
      word.setWidth 64 ||| if access = .write then 0xC0#64 else 0x40#64 := by
    rw [pteAd, dirty, BitVec.or_assoc]
    cases access <;> rfl
  have kept := write_back spells fits bytes
  funext q
  have here := congrFun kept q
  rw [HostMem.write_apply] at here ⊢
  rw [bits, leByte_or, setAd]
  by_cases first : q = p
  · subst first
    rw [BitVec.sub_self] at here ⊢
    have inside : 0#64 < size := nonempty
    rw [if_pos inside] at here ⊢
    rw [here, update_self]
    cases access <;> rfl
  · rw [update_of_ne first]
    have later : q - p ≠ 0 := by
      intro same
      apply first
      rw [← BitVec.sub_add_cancel q p, same]
      exact BitVec.zero_add p
    have clear : leByte (if access = .write then 0xC0#64 else 0x40#64) (q - p) = 0 :=
      leByte_small (by cases access <;> decide) later
    rw [clear, ofNat_eq_ofNat, or_zero]
    exact here
end

end Rewrite

/-! The shifts and masks of the level loop. -/

theorem bits_eq_zero_iff (x : BitVec 64) : x = 0 ↔ ∀ b, b < 64 → x.getLsbD b = false := by
  constructor
  · rintro rfl b -
    exact getLsbD_zero
  · intro clear
    apply eq_of_getLsbD_eq
    intro b below
    rw [clear b below]
    exact getLsbD_zero.symm

theorem getLsbD_pageMask {b : Nat} (below : b < 64) : (~~~ 0xFFF#64).getLsbD b = decide (12 ≤ b) := by
  rw [getLsbD_not, show (0xFFF#64 : BitVec 64) = bitMask 12 from rfl, getLsbD_bitMask 12 b below,
    decide_eq_true below, ← decide_not]
  exact decide_eq_decide.mpr Nat.not_lt

namespace Sv
variable (sv : Sv) (pte va : BitVec 64) (i : Nat) {b : Nat}

theorem getLsbD_ppn (below : b < 64) :
    (sv.ppn pte).getLsbD b = (pte.getLsbD (10 + b) && decide (b < sv.ppnBits)) := by
  rw [ppn, getLsbD_and, getLsbD_ushiftRight, getLsbD_bitMask _ _ below]

theorem getLsbD_next (below : b < 64) :
    (sv.ppn pte <<< 12).getLsbD b = (decide (12 ≤ b) && pte.getLsbD (b - 2) && decide (b < 12 + sv.ppnBits)) := by
  rw [getLsbD_shiftLeft, getLsbD_ppn sv pte (by omega)]
  by_cases high : 12 ≤ b
  · simp [below, high, show ¬ b < 12 by omega, show 10 + (b - 12) = b - 2 by omega,
      show (b - 12 < sv.ppnBits ↔ b < 12 + sv.ppnBits) by omega]
  · simp [below, show b < 12 by omega]

theorem getLsbD_page (below : b < 64) :
    (sv.page pte i va).getLsbD b =
      if b < sv.offsetBits i then va.getLsbD b
      else pte.getLsbD (b - 2) && decide (b < 12 + sv.ppnBits) := by
  rw [page, getLsbD_or, getLsbD_shiftLeft, getLsbD_ushiftRight, getLsbD_and,
    getLsbD_bitMask _ _ below]
  by_cases offset : b < sv.offsetBits i
  · simp [offset]
  · unfold offsetBits at offset ⊢
    have index : i * sv.vpnBits + (b - (12 + i * sv.vpnBits)) = b - 12 := by omega
    rw [index, getLsbD_ppn sv pte (by omega)]
    simp [below, offset, show 10 + (b - 12) = b - 2 by omega,
      show (b - 12 < sv.ppnBits ↔ b < 12 + sv.ppnBits) by omega]

theorem aligned_iff (narrow : sv.offsetBits i ≤ 12 + sv.ppnBits) (wide : sv.offsetBits i ≤ 64) :
    sv.aligned pte i = true ↔ ∀ b, 12 ≤ b → b < sv.offsetBits i → pte.getLsbD (b - 2) = false := by
  unfold offsetBits at narrow wide ⊢
  rw [aligned, beq_iff_eq, bits_eq_zero_iff]
  constructor
  · intro clear b high low
    have bit := clear (b - 12) (by omega)
    rw [getLsbD_and, getLsbD_ppn sv pte (by omega), getLsbD_bitMask _ _ (by omega)] at bit
    simpa [show 10 + (b - 12) = b - 2 by omega, show b - 12 < sv.ppnBits by omega,
      show b - 12 < i * sv.vpnBits by omega] using bit
  · intro clear b below
    rw [getLsbD_and, getLsbD_ppn sv pte below, getLsbD_bitMask _ _ below]
    by_cases low : b < i * sv.vpnBits
    · have bit := clear (b + 12) (by omega) (by omega)
      rw [show b + 12 - 2 = 10 + b by omega] at bit
      simp [bit]
    · simp [low]

end Sv

/-- A format of the level loop reads the entries of a translation scheme, but computes physical
addresses with `kept` bits. -/
structure PteFormat.Implements (fmt : PteFormat) (sv : Sv) (kept : Nat) : Prop where
  vpnBits : fmt.vpnBits = sv.vpnBits
  vpnMask : fmt.vpnMask = bitMask sv.vpnBits
  offShift : fmt.offShift = sv.pteBits
  physBits : fmt.physBits = 12 + sv.ppnBits
  read : fmt.read = sv.read
  narrow : ∀ i, i < sv.levels → sv.offsetBits i ≤ 12 + sv.ppnBits
  short : ∀ i, i < sv.levels → sv.offsetBits i ≤ kept
  word : kept ≤ 64
  shift : ∀ host p b, b < 64 → (fmt.pteShift (sv.read host p)).getLsbD b =
    (decide (2 ≤ b ∧ b < kept) && (sv.read host p).getLsbD (b - 2))
  next : ∀ host p b, b < 64 → (fmt.nextTable (sv.read host p)).getLsbD b =
    (decide (12 ≤ b ∧ b < kept ∧ b < 12 + sv.ppnBits) && (sv.read host p).getLsbD (b - 2))
  rewrite : ∀ host p access mask, mask &&& 0x4#64 = (if access = .write then 0x4#64 else 0#64) →
    fmt.update host p (pteAd (sv.read host p) mask) = setAd host p access
  back : ∀ host p, fmt.update host p (sv.read host p) = host

namespace PteFormat.Implements
variable {fmt : PteFormat} {sv : Sv} {kept : Nat} (impl : fmt.Implements sv kept)
include impl

theorem entry (table va : Addr) (i : Nat) :
    fmt.pteAddr ⟨table, sv.offsetBits i⟩ va = sv.entryAddr table va i := by
  rw [pteAddr, Sv.entryAddr, Sv.vpn, impl.vpnMask, impl.offShift]

theorem nextTable (host : HostMem) (p : Addr) :
    fmt.nextTable (sv.read host p) = (sv.ppn (sv.read host p) <<< 12) &&& bitMask kept := by
  apply eq_of_getLsbD_eq
  intro b below
  rw [impl.next host p b below, getLsbD_and, Sv.getLsbD_next sv _ below, getLsbD_bitMask _ _ below]
  by_cases high : 12 ≤ b <;> by_cases low : b < kept <;> by_cases phys : b < 12 + sv.ppnBits <;>
    simp [high, low, phys]

theorem aligned (host : HostMem) (p : Addr) {i : Nat} (level : i < sv.levels) :
    fmt.pteShift (sv.read host p) &&& bitMask (sv.offsetBits i) &&& ~~~ 0xFFF#64 = 0 ↔
      sv.aligned (sv.read host p) i = true := by
  have short := impl.short i level
  have word := impl.word
  rw [Sv.aligned_iff sv _ i (impl.narrow i level) (by omega), bits_eq_zero_iff]
  constructor
  · intro clear b high low
    have bit := clear b (by omega)
    rw [getLsbD_and, getLsbD_and, impl.shift host p b (by omega), getLsbD_bitMask _ _ (by omega),
      getLsbD_pageMask (by omega)] at bit
    simpa [high, low, show 2 ≤ b by omega, show b < kept by omega] using bit
  · intro clear b below
    rw [getLsbD_and, getLsbD_and, impl.shift host p b below, getLsbD_bitMask _ _ below,
      getLsbD_pageMask below]
    by_cases inside : 12 ≤ b ∧ b < sv.offsetBits i
    · simp [clear b inside.1 inside.2]
    · by_cases high : 12 ≤ b
      · simp [show ¬ b < sv.offsetBits i by omega]
      · simp [high]

theorem page (host : HostMem) (p va : Addr) {i : Nat} (level : i < sv.levels) :
    (fmt.pteShift (sv.read host p) &&&
        (bitMask (fmt.physBits - sv.offsetBits i) <<< sv.offsetBits i)) |||
      (va &&& bitMask (sv.offsetBits i)) = sv.page (sv.read host p) i va &&& bitMask kept := by
  have short := impl.short i level
  have start : 12 ≤ sv.offsetBits i := by
    unfold Sv.offsetBits
    omega
  apply eq_of_getLsbD_eq
  intro b below
  rw [getLsbD_or, getLsbD_and, getLsbD_and, getLsbD_and, impl.shift host p b below,
    getLsbD_shiftLeft, getLsbD_bitMask _ (b - _) (by omega), getLsbD_bitMask _ b below,
    getLsbD_bitMask _ b below, Sv.getLsbD_page sv _ va i below, impl.physBits]
  by_cases offset : b < sv.offsetBits i
  · simp [offset, show b < kept by omega]
  · have field : (b - sv.offsetBits i < 12 + sv.ppnBits - sv.offsetBits i) ↔ b < 12 + sv.ppnBits := by omega
    by_cases low : b < kept <;>
      simp [below, offset, low, show 2 ≤ b by omega, field]

end PteFormat.Implements

theorem sv64_implements {levels : Nat} (atMost : levels ≤ 5) :
    sv64Format.Implements (Sv.sv64 levels) 64 where
  vpnBits := rfl
  vpnMask := (by decide : 0x1FF#64 = bitMask 9)
  offShift := rfl
  physBits := rfl
  read := rfl
  narrow := by
    intro i (level : i < levels)
    change 12 + i * 9 ≤ 56
    omega
  short := by
    intro i (level : i < levels)
    change 12 + i * 9 ≤ 64
    omega
  word := le_rfl
  shift := by
    intro host p b below
    change (Sv.read (Sv.sv64 levels) host p <<< 2).getLsbD b = _
    rw [getLsbD_shiftLeft]
    by_cases high : 2 ≤ b <;> simp [below, high, show b < 2 ↔ ¬ 2 ≤ b by omega]
  next := by
    intro host p b below
    change (((Sv.read (Sv.sv64 levels) host p >>> 10) <<< 12) &&& bitMask 56).getLsbD b =
      (decide (12 ≤ b ∧ b < 64 ∧ b < 56) && _)
    rw [getLsbD_and, getLsbD_shiftLeft, getLsbD_bitMask _ _ below]
    by_cases high : 12 ≤ b
    · simp [below, high, show ¬ b < 12 by omega, show 10 + (b - 12) = b - 2 by omega, Bool.and_comm]
    · simp [high, show b < 12 by omega]
  rewrite := by
    intro host p access mask dirty
    have whole : host.write p (leByte (pteAd ((readUint64Le host p).setWidth 64) mask)) 8 =
        setAd host p access := write_setAd (readUint64Le_spells host p) le_rfl rfl (by decide) dirty
    exact whole
  back := by
    intro host p
    have whole : host.write p (leByte ((readUint64Le host p).setWidth 64)) 8 = host :=
      write_back (readUint64Le_spells host p) le_rfl rfl
    exact whole

theorem sv32_implements : sv32Format.Implements Sv.sv32 32 where
  vpnBits := rfl
  vpnMask := rfl
  offShift := rfl
  physBits := rfl
  read := rfl
  narrow := by
    intro i (level : i < 2)
    change 12 + i * 10 ≤ 34
    omega
  short := by
    intro i (level : i < 2)
    change 12 + i * 10 ≤ 32
    omega
  word := by decide
  shift := by
    intro host p b below
    change ((((readUint32Le host p).setWidth 64).setWidth 32 <<< 2).setWidth 64).getLsbD b =
      (_ && ((readUint32Le host p).setWidth 64).getLsbD (b - 2))
    rw [getLsbD_setWidth, getLsbD_shiftLeft, getLsbD_setWidth]
    by_cases high : 2 ≤ b <;> by_cases low : b < 32 <;>
      simp [below, high, low, show b < 2 ↔ ¬ 2 ≤ b by omega, show b - 2 < 64 by omega]
    omega
  next := by
    intro host p b below
    change (((((readUint32Le host p).setWidth 64).setWidth 32 >>> 10) <<< 12).setWidth 64).getLsbD b =
      (decide (12 ≤ b ∧ b < 32 ∧ b < 34) && ((readUint32Le host p).setWidth 64).getLsbD (b - 2))
    rw [getLsbD_setWidth, getLsbD_shiftLeft, getLsbD_ushiftRight, getLsbD_setWidth]
    by_cases high : 12 ≤ b <;> by_cases low : b < 32 <;>
      simp [below, high, low, show b < 12 ↔ ¬ 12 ≤ b by omega, show b - 2 < 64 by omega]
    rw [show 10 + (b - 12) = b - 2 by omega]
    simp [show b - 2 < 32 by omega, show b < 34 by omega, show b - 2 < 64 by omega]
  rewrite := by
    intro host p access mask dirty
    exact write_setAd (readUint32Le_spells host p) (by decide) rfl (by decide) dirty
  back := by
    intro host p
    exact write_back (readUint32Le_spells host p) (by decide) rfl

/-! The decision on one entry. -/

section
variable (pte : BitVec 64)
include pte

theorem and_bit_eq_zero (k : Nat) :
    pte &&& twoPow 64 k = 0#64 ↔ pte.getLsbD k = false := by
  rw [and_twoPow]
  cases bit : pte.getLsbD k with
  | false => exact iff_of_true rfl rfl
  | true =>
    have below := lt_of_getLsbD bit
    refine iff_of_false (fun zero => ?_) (by decide)
    have set : (twoPow 64 k).getLsbD k = true := by simp [below]
    rw [if_pos rfl] at zero
    rw [zero] at set
    exact Bool.false_ne_true (getLsbD_zero.symm.trans set)

theorem and_valid : pte &&& 0x1#64 = 0#64 ↔ Pte.valid pte = false := and_bit_eq_zero pte 0

theorem and_read : pte &&& 0x2#64 = 0#64 ↔ Pte.readable pte = false := and_bit_eq_zero pte 1

theorem and_write : pte &&& 0x4#64 = 0#64 ↔ Pte.writable pte = false := and_bit_eq_zero pte 2

theorem and_exec : pte &&& 0x8#64 = 0#64 ↔ Pte.executable pte = false :=
  and_bit_eq_zero pte 3

theorem and_leaf : pte &&& 0xA#64 = 0#64 ↔ Pte.leaf pte = false := by
  rw [show 0xA#64 = 0x2#64 ||| 0x8#64 by decide, and_or_distrib_left, or_eq_zero_iff, and_read,
    and_exec, Pte.leaf, Bool.or_eq_false_iff]
end

section Decision
variable (vm : Hart δ) (access : Access) (pte : BitVec 64)

theorem effectiveAccess_write :
    vm.effectiveAccess access.mask &&& 0x4#64 = if access = .write then 0x4#64 else 0#64 := by
  unfold Hart.effectiveAccess
  cases access <;> cases vm.csr.mxr <;> decide

theorem and_effectiveAccess : pte &&& vm.effectiveAccess access.mask = 0#64 ↔
    (match access with
      | .read => Pte.readable pte || (vm.csr.mxr && Pte.executable pte)
      | .write => Pte.writable pte
      | .exec => Pte.executable pte) = false := by
  unfold Hart.effectiveAccess
  cases access with
  | read =>
    cases vm.csr.mxr with
    | false => simpa [Access.mask] using and_read pte
    | true => simpa [Access.mask, Pte.leaf] using and_leaf pte
  | write => simpa [Access.mask] using and_write pte
  | exec => simpa [Access.mask] using and_exec pte

theorem riscvMmuCheckPriv_eq (priv : Priv) :
    riscvMmuCheckPriv vm.csr priv (vm.effectiveAccess access.mask) =
      (decide (access ≠ .exec) && decide (priv = .supervisor) && vm.csr.sum) := by
  unfold riscvMmuCheckPriv Hart.effectiveAccess
  cases access <;> cases vm.csr.mxr <;> simp [Access.mask, debugAccess]

theorem permitted_iff {priv : Priv} (paged : priv = .user ∨ priv = .supervisor) :
    permitted vm.csr priv access pte = true ↔
      ¬ (pte.getLsbD 4 == decide (priv ≠ .user) &&
          !riscvMmuCheckPriv vm.csr priv (vm.effectiveAccess access.mask)) = true ∧
        pte &&& vm.effectiveAccess access.mask ≠ 0 := by
  have access_iff : pte &&& vm.effectiveAccess access.mask ≠ 0 ↔ _ :=
    (and_effectiveAccess vm access pte).not.trans (Bool.not_eq_false _).to_iff
  unfold permitted
  rw [access_iff, riscvMmuCheckPriv_eq, Bool.and_eq_true]
  refine and_congr_left fun _ => ?_
  rw [show pte.getLsbD 4 = Pte.user pte from rfl]
  rcases paged with rfl | rfl
  · simp
  · cases access <;> cases vm.csr.sum <;> cases Pte.user pte <;> simp

end Decision

section Walk
variable {fmt : PteFormat} {sv : Sv} {kept : Nat} (impl : fmt.Implements sv kept)
  (vm : Hart δ) (va : Addr) (access : Access)

/-- What the loop makes of the entry it ends at. -/
def Sv.yield (kept : Nat) : Option (Nat × Addr) → Option Addr × HostMem
  | none => (none, vm.host)
  | some last =>
    if sv.Grants vm access last then
      (some (sv.foundPage vm va last &&& bitMask kept), setAd vm.host last.2 access)
    else (none, vm.host)

def PteFormat.judge (fmt : PteFormat) (pos : Walk) (pte : BitVec 64) : PteVerdict :=
  fmt.verdict vm.csr (vm.effectivePriv access.mask) (vm.effectiveAccess access.mask) va pos pte

variable {slot : Addr}

/-- An entry the loop neither follows nor takes is read again until the levels run out. -/
theorem walk_stuck {pos : Walk} (there : riscvPhysAccess vm.mem (fmt.pteAddr pos va) = some slot)
    (stuck : fmt.judge vm va access pos (fmt.read vm.host slot) = .stay ∨
      fmt.judge vm va access pos (fmt.read vm.host slot) = .fault) (n : Nat) :
    fmt.walk vm.mem vm.csr (vm.effectivePriv access.mask) (vm.effectiveAccess access.mask) va n pos vm.host =
      (none, vm.host) := by
  induction n with
  | zero => rfl
  | succ n ih =>
    unfold PteFormat.judge at stuck
    rw [PteFormat.walk, there]
    dsimp only
    rcases stuck with stay | fault
    · rw [stay]
      exact ih
    · rw [fault]

include impl

theorem judge_pointer (table : Addr) (i : Nat)
    (pointer : Pte.pointer (sv.read vm.host slot) = true) :
    fmt.judge vm va access ⟨table, sv.offsetBits i⟩ (sv.read vm.host slot) =
      .descend ⟨(sv.ppn (sv.read vm.host slot) <<< 12) &&& bitMask kept, sv.offsetBits i - sv.vpnBits⟩ := by
  simp only [Pte.pointer, Bool.and_eq_true, Bool.not_eq_true'] at pointer
  obtain ⟨⟨valid, inner⟩, readOnly⟩ := pointer
  rw [PteFormat.judge, PteFormat.verdict, if_neg, if_neg, if_neg, impl.nextTable, impl.vpnBits]
  · exact not_not.mpr ((and_write _).mpr readOnly)
  · exact not_not.mpr ((and_leaf _).mpr inner)
  · exact (and_valid _).not.mpr (by rw [valid]; decide)

variable (paged : vm.effectivePriv access.mask = .user ∨ vm.effectivePriv access.mask = .supervisor)
include paged

theorem judge_grants (table : Addr) {i : Nat} (level : i < sv.levels)
    (granted : sv.Grants vm access (i, slot)) :
    fmt.judge vm va access ⟨table, sv.offsetBits i⟩ (sv.read vm.host slot) =
      .leaf (sv.foundPage vm va (i, slot) &&& bitMask kept) := by
  obtain ⟨valid, leaf, permit, aligned⟩ := granted
  obtain ⟨allowed, reached⟩ := (permitted_iff vm access _ paged).mp permit
  rw [PteFormat.judge, PteFormat.verdict, if_neg, if_pos, if_neg allowed, if_neg reached]
  · rw [if_neg, impl.page vm.host slot va level]
    · rfl
    · exact not_not.mpr ((impl.aligned vm.host slot level).mpr aligned)
  · exact (and_leaf _).not.mpr (by rw [leaf]; decide)
  · exact (and_valid _).not.mpr (by rw [valid]; decide)

theorem judge_denied (table : Addr) {i : Nat} (level : i < sv.levels)
    (inner : Pte.pointer (sv.read vm.host slot) ≠ true) (denied : ¬ sv.Grants vm access (i, slot)) :
    fmt.judge vm va access ⟨table, sv.offsetBits i⟩ (sv.read vm.host slot) = .stay ∨
      fmt.judge vm va access ⟨table, sv.offsetBits i⟩ (sv.read vm.host slot) = .fault := by
  unfold PteFormat.judge PteFormat.verdict
  split
  case isTrue => exact .inl rfl
  case isFalse valid =>
    split
    case isTrue leaf =>
      split
      case isTrue => exact .inr rfl
      case isFalse allowed =>
        split
        case isTrue => exact .inl rfl
        case isFalse reached =>
          rw [if_pos]
          · exact .inr rfl
          · intro clear
            apply denied
            refine ⟨?_, ?_, (permitted_iff vm access _ paged).mpr ⟨allowed, reached⟩,
              (impl.aligned vm.host slot level).mp clear⟩
            · exact Bool.of_not_eq_false fun off => valid ((and_valid _).mpr off)
            · exact Bool.of_not_eq_false fun off => leaf ((and_leaf _).mpr off)
    case isFalse leaf =>
      split
      case isTrue => exact .inl rfl
      case isFalse readOnly =>
        refine absurd ?_ inner
        have clearW := (and_write _).mp (not_not.mp readOnly)
        have clearL := (and_leaf _).mp (not_not.mp leaf)
        have setV := Bool.of_not_eq_false fun off => valid ((and_valid _).mpr off)
        rw [Pte.pointer, setV, clearL, clearW]
        rfl

theorem walk_eq_yield (n : Nat) (table : Addr) (atMost : n ≤ sv.levels) :
    fmt.walk vm.mem vm.csr (vm.effectivePriv access.mask) (vm.effectiveAccess access.mask) va n
      ⟨table, sv.offsetBits (n - 1)⟩ vm.host = sv.yield vm va access kept (sv.find vm va kept n table) := by
  induction n generalizing table with
  | zero => rfl
  | succ n ih =>
    have read := congrFun (congrFun impl.read vm.host)
    cases there : riscvPhysAccess vm.mem (sv.entryAddr table va n) with
    | none =>
      rw [PteFormat.walk, Sv.find, Nat.add_sub_cancel, impl.entry, there]
      rfl
    | some slot =>
      have entry : riscvPhysAccess vm.mem (fmt.pteAddr ⟨table, sv.offsetBits n⟩ va) = some slot := by
        rw [impl.entry, there]
      rw [Sv.find, there, Nat.add_sub_cancel]
      dsimp only
      by_cases pointer : Pte.pointer (sv.read vm.host slot) = true
      · have judged := judge_pointer impl vm va access table n pointer
        rw [if_pos pointer, ← ih _ (by omega), PteFormat.walk, entry]
        unfold PteFormat.judge at judged
        dsimp only
        rw [read, judged]
        cases n with
        | zero => rfl
        | succ n =>
          rw [show sv.offsetBits (n + 1) - sv.vpnBits = sv.offsetBits (n + 1 - 1) by
            unfold Sv.offsetBits
            rw [Nat.succ_mul]
            simp only [Nat.add_sub_cancel]
            omega]
      · rw [if_neg pointer]
        by_cases granted : sv.Grants vm access (n, slot)
        · have judged := judge_grants impl vm va access paged table (by omega) granted
          unfold PteFormat.judge at judged
          rw [Sv.yield, PteFormat.walk, entry]
          dsimp only
          rw [read, judged]
          dsimp only
          split
          case isTrue => rw [impl.rewrite _ _ access _ (effectiveAccess_write vm access)]
          case isFalse same =>
            rw [← impl.rewrite _ _ access _ (effectiveAccess_write vm access), ← not_not.mp same, impl.back]
        · have judged := judge_denied impl vm va access paged table (by omega) pointer granted
          rw [Sv.yield, if_neg granted, ← read] at *
          exact walk_stuck vm va access entry judged (n + 1)

end Walk

/-! The two walks compared. -/

def SatpMode.scheme : SatpMode → Option Sv
  | .bare => none
  | .sv32 => some .sv32
  | .sv39 => some (.sv64 3)
  | .sv48 => some (.sv64 4)
  | .sv57 => some (.sv64 5)

/-- The width of the physical addresses the loop computes: an Sv32 entry is shifted as a
`uint32_t`. -/
def SatpMode.kept : SatpMode → Nat
  | .sv32 => 32
  | _ => 64

theorem setAd_eq_iff (host : HostMem) (p q : Addr) (access : Access) :
    setAd host p access = setAd host q access ↔ p = q ∨ Marked host p access ∧ Marked host q access := by
  unfold setAd Marked
  constructor
  · intro same
    by_cases slots : p = q
    · exact .inl slots
    · have atP := congrFun same p
      have atQ := congrFun same q
      rw [update_self, update_of_ne slots] at atP
      rw [update_self, update_of_ne (Ne.symm slots)] at atQ
      exact .inr ⟨atP, atQ.symm⟩
  · rintro (rfl | ⟨atP, atQ⟩)
    · rfl
    · rw [atP, atQ, update_eq_self, update_eq_self]

namespace Sv
variable (sv : Sv) (vm : Hart δ) (va : Addr) (access : Access)

def Accepts (last : Nat × Addr) : Prop := sv.Grants vm access last ∧ ¬ sv.Reserved vm last

instance (last : Nat × Addr) : Decidable (sv.Accepts vm access last) := by
  unfold Accepts
  infer_instance

def verdict : Option (Nat × Addr) → Option Addr × HostMem
  | none => (none, vm.host)
  | some last =>
    if sv.Accepts vm access last then
      (some (sv.foundPage vm va last), setAd vm.host last.2 access)
    else (none, vm.host)

/-- An entry that is decided alike: a leaf that grants the access is not reserved and its page
is within the addresses the loop computes. -/
def Plain (kept : Nat) (last : Nat × Addr) : Prop :=
  sv.Grants vm access last →
    ¬ sv.Reserved vm last ∧ sv.foundPage vm va last &&& bitMask kept = sv.foundPage vm va last

/-- Two entries that happen to yield the same: both deny, or both map the same page and have
their accessed and dirty bits already set. -/
def Coincide (kept : Nat) (full low : Option (Nat × Addr)) : Prop :=
  ((∀ x ∈ full, ¬ sv.Accepts vm access x) ∧ ∀ y ∈ low, ¬ sv.Grants vm access y) ∨
    ∃ x ∈ full, ∃ y ∈ low, sv.Accepts vm access x ∧ sv.Grants vm access y ∧
      sv.foundPage vm va x = sv.foundPage vm va y &&& bitMask kept ∧
      (x.2 = y.2 ∨ Marked vm.host x.2 access ∧ Marked vm.host y.2 access)

/-- The page tables give the loop no occasion to depart from the architecture: the whole and the
truncated table addresses lead to one entry, and it is plain, or they lead to entries that yield
the same. -/
def Faithful (kept : Nat) : Prop :=
  sv.canonical va = true →
    let full := sv.find vm va 64 sv.levels vm.rootPageTable
    let low := sv.find vm va kept sv.levels vm.rootPageTable
    (full = low → ∀ last ∈ full, sv.Plain vm va access kept last) ∧
      (full ≠ low → sv.Coincide vm va access kept full low)

theorem walk_eq_find (n : Nat) (table : Addr) :
    (match sv.walk vm va access (vm.effectivePriv access.mask) n table with
      | none => (none, vm.host)
      | some (slot, paddr) => (some paddr, setAd vm.host slot access)) =
      sv.verdict vm va access (sv.find vm va 64 n table) := by
  induction n generalizing table with
  | zero => rfl
  | succ n ih =>
    rw [walk, find]
    cases riscvPhysAccess vm.mem (sv.entryAddr table va n) with
    | none => rfl
    | some slot =>
      dsimp only
      by_cases pointer : Pte.pointer (sv.read vm.host slot) = true
      · obtain ⟨valid, leaf, reserved⟩ := Pte.of_pointer pointer
        rw [if_pos pointer, valid, leaf, reserved, show bitMask 64 = allOnes 64 from rfl,
          and_allOnes, ← ih]
        rfl
      · rw [if_neg pointer, verdict]
        by_cases granted : sv.Accepts vm access (n, slot)
        · rw [if_pos granted]
          obtain ⟨⟨valid, leaf, permit, aligned⟩, plain⟩ := granted
          rw [valid, leaf, eq_false_of_ne_true plain, permit, aligned]
          rfl
        · rw [if_neg granted]
          by_cases refused : (!Pte.valid (sv.read vm.host slot) || Pte.reserved (sv.read vm.host slot)) = true
          · rw [if_pos refused]
          · rw [if_neg refused]
            rw [Bool.or_eq_true, not_or, Bool.not_eq_true', Bool.not_eq_false] at refused
            have leaf := Pte.leaf_of_valid refused.1 pointer (eq_false_of_ne_true refused.2)
            rw [if_pos leaf, if_neg]
            rw [Bool.and_eq_true]
            rintro ⟨permit, aligned⟩
            exact granted ⟨⟨refused.1, leaf, permit, aligned⟩, refused.2⟩

theorem verdict_eq_yield_iff (kept : Nat) (full low : Option (Nat × Addr)) :
    sv.verdict vm va access full = sv.yield vm va access kept low ↔
      sv.Coincide vm va access kept full low := by
  unfold Coincide
  cases full with
  | none =>
    cases low with
    | none => simp [yield, verdict]
    | some y =>
      by_cases granted : sv.Grants vm access y <;> simp [yield, verdict, granted]
  | some x =>
    cases low with
    | none =>
      by_cases accepted : sv.Accepts vm access x <;> simp [yield, verdict, accepted]
    | some y =>
      by_cases accepted : sv.Accepts vm access x <;> by_cases granted : sv.Grants vm access y <;>
        simp [yield, verdict, accepted, granted, setAd_eq_iff]

theorem coincide_self_iff (kept : Nat) (full : Option (Nat × Addr)) :
    sv.Coincide vm va access kept full full ↔ ∀ last ∈ full, sv.Plain vm va access kept last := by
  constructor
  · rintro (⟨-, denied⟩ | ⟨x, inFull, y, inLow, ⟨-, plain⟩, -, page, -⟩) last found granted
    · exact absurd granted (denied last found)
    · obtain rfl := mem_unique inFull found
      obtain rfl := mem_unique inLow found
      exact ⟨plain, page.symm⟩
  · intro plain
    by_cases granted : ∃ last ∈ full, sv.Grants vm access last
    · obtain ⟨last, found, grants⟩ := granted
      obtain ⟨unreserved, page⟩ := plain last found grants
      exact .inr ⟨last, found, last, found, ⟨grants, unreserved⟩, grants, page.symm, .inl rfl⟩
    · refine .inl ⟨?_, ?_⟩
      · intro x found accepted
        exact granted ⟨x, found, accepted.1⟩
      · intro y found grants
        exact granted ⟨y, found, grants⟩

end Sv

theorem sv64_canonical_iff (va : Addr) {levels : Nat} (positive : 0 < levels) (atMost : levels ≤ 5) :
    (Sv.sv64 levels).canonical va = true ↔ va = signExtend64 va (levels * 9 + 12) := by
  have low : va.setWidth (levels * 9 + 12) = va.extractLsb' 0 (levels * 9 + 12) := by
    apply eq_of_getLsbD_eq
    intro b below
    simp [below]
  change (va == (va.setWidth (levels * 9 + 12)).signExtend 64) = true ↔ _
  rw [beq_iff_eq, low, signExtend64, bitExtI_eq va (by omega) (by omega)]

theorem lift_eq_iff (vm : Hart δ) (x y : Option Addr × HostMem) :
    (x.1, { vm with host := x.2 }) = (y.1, { vm with host := y.2 }) ↔ x = y := by
  constructor
  · intro same
    obtain ⟨paddr, hart⟩ := Prod.mk.inj same
    exact Prod.ext paddr (congrArg Hart.host hart)
  · rintro rfl
    rfl

section Compare
variable (vm : Hart δ) (va : Addr) (access : Access)
  (paged : vm.effectivePriv access.mask = .user ∨ vm.effectivePriv access.mask = .supervisor)
include paged

theorem riscvMmuTranslateRv64_eq {levels : Nat} (positive : 0 < levels) (atMost : levels ≤ 5) :
    riscvMmuTranslateRv64 vm va (vm.effectivePriv access.mask) (vm.effectiveAccess access.mask) levels =
      if (Sv.sv64 levels).canonical va then
        (Sv.sv64 levels).yield vm va access 64 ((Sv.sv64 levels).find vm va 64 levels vm.rootPageTable)
      else (none, vm.host) := by
  have walked := walk_eq_yield (sv64_implements atMost) vm va access paged levels vm.rootPageTable le_rfl
  have offset : (Sv.sv64 levels).offsetBits (levels - 1) = levels * 9 + 12 - 9 := by
    change 12 + (levels - 1) * 9 = _
    omega
  rw [offset] at walked
  unfold riscvMmuTranslateRv64
  dsimp only
  rw [walked]
  by_cases canonical : (Sv.sv64 levels).canonical va = true
  · rw [if_pos canonical, if_neg]
    exact not_not.mpr ((sv64_canonical_iff va positive atMost).mp canonical)
  · rw [if_neg canonical, if_pos]
    exact fun same => canonical ((sv64_canonical_iff va positive atMost).mpr same)

theorem riscvMmuTranslateSv32_eq :
    riscvMmuTranslateSv32 vm va (vm.effectivePriv access.mask) (vm.effectiveAccess access.mask) =
      Sv.sv32.yield vm va access 32 (Sv.sv32.find vm va 32 2 vm.rootPageTable) :=
  walk_eq_yield sv32_implements vm va access paged 2 vm.rootPageTable le_rfl

theorem riscvMmuTranslate_eq {sv : Sv} (mode : vm.mmuMode.scheme = some sv) :
    riscvMmuTranslate vm va access.mask =
      let result := if sv.canonical va then
          sv.yield vm va access vm.mmuMode.kept (sv.find vm va vm.mmuMode.kept sv.levels vm.rootPageTable)
        else (none, vm.host)
      (result.1, { vm with host := result.2 }) := by
  have below : (vm.effectivePriv access.mask).code < Priv.machine.code := by
    rcases paged with user | supervisor
    · rw [user]
      decide
    · rw [supervisor]
      decide
  unfold riscvMmuTranslate
  rw [if_pos below]
  cases selected : vm.mmuMode with
  | bare =>
    rw [selected] at mode
    exact absurd mode (by simp [SatpMode.scheme])
  | sv32 =>
    rw [selected] at mode
    obtain rfl := some.inj mode
    rw [riscvMmuTranslateSv32_eq vm va access paged]
    rfl
  | sv39 | sv48 | sv57 =>
    rw [selected] at mode
    obtain rfl := some.inj mode
    dsimp only
    rw [riscvMmuTranslateRv64_eq vm va access paged (by decide) (by decide)]
    rfl

/-- Translation is the architecture's, down to the memory it leaves, exactly when the tables are
faithful for the access. -/
theorem page_walk_iff {sv : Sv} (mode : vm.mmuMode.scheme = some sv) :
    riscvMmuTranslate vm va access.mask =
        ((sv.translate vm va access).1, { vm with host := (sv.translate vm va access).2 }) ↔
      sv.Faithful vm va access vm.mmuMode.kept := by
  rw [riscvMmuTranslate_eq vm va access paged mode]
  rw [lift_eq_iff, Sv.translate]
  unfold Sv.Faithful
  by_cases canonical : sv.canonical va = true
  · rw [if_pos canonical, if_pos canonical, sv.walk_eq_find vm va access, eq_comm,
      sv.verdict_eq_yield_iff vm va access, forall_prop_of_true canonical]
    by_cases one : sv.find vm va 64 sv.levels vm.rootPageTable =
        sv.find vm va vm.mmuMode.kept sv.levels vm.rootPageTable
    · rw [← one, sv.coincide_self_iff]
      exact ⟨fun plain => ⟨fun _ => plain, fun apart => absurd rfl apart⟩, fun both => both.1 rfl⟩
    · exact ⟨fun coincide => ⟨fun same => absurd same one, fun _ => coincide⟩, fun both => both.2 one⟩
  · rw [if_neg canonical, if_neg canonical]
    exact iff_of_true rfl fun holds => absurd holds canonical

end Compare

def tableRam : GuestRam where
  addr := 0x80000000
  size := 0x1000
  data := 0x10000
  fits := by decide
  mapped := by decide
  addrAligned := rfl
  sizeAligned := rfl

def tableHart (mode : SatpMode) (pte : BitVec 32) : Hart Unit :=
  { riscvHartInit tableRam (fun _ => 0) [] () (decide (mode ≠ .sv32)) false with
    host := fun p => if p - 0x10000 < 4 then leByte (pte.setWidth 64) (p - 0x10000) else 0
    rootPageTable := 0x80000000
    mmuMode := mode
    privMode := .supervisor }

theorem page_walk_iff_tableHart :
    ((tableHart .sv39 0xF).effectivePriv Access.write.mask = .supervisor ∧
      (tableHart .sv39 0xF).mmuMode.scheme = some (.sv64 3)) ∧
    (riscvMmuTranslate (tableHart .sv39 0xF) 0x1234 Access.write.mask =
        (((Sv.sv64 3).translate (tableHart .sv39 0xF) 0x1234 .write).1,
          { tableHart .sv39 0xF with
            host := ((Sv.sv64 3).translate (tableHart .sv39 0xF) 0x1234 .write).2 }) ↔
      (Sv.sv64 3).Faithful (tableHart .sv39 0xF) 0x1234 .write 64) :=
  ⟨⟨rfl, rfl⟩, page_walk_iff (tableHart .sv39 0xF) 0x1234 .write (.inr rfl) rfl⟩

/-- A page that is writable and executable but not readable is reserved, yet instructions are
fetched from it; a page of Sv32 above 4 GiB is mapped below. -/
theorem page_walk_departs :
    ((riscvMmuTranslate (tableHart .sv39 0xD) 0x1234 Access.exec.mask).1 = some 0x1234 ∧
      ((Sv.sv64 3).translate (tableHart .sv39 0xD) 0x1234 .exec).1 = none) ∧
    (riscvMmuTranslate (tableHart .sv32 0x40000003) 0x1234 Access.read.mask).1 = some 0x1234 ∧
      (Sv.sv32.translate (tableHart .sv32 0x40000003) 0x1234 .read).1 = some 0x100001234 := by
  decide +kernel

end Rvvm
