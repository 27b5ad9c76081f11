import Rvvm.Cpu.TlbFastPath

/-! Where a translation ends: the level loop follows pointers to one entry, which decides on the
address. -/
namespace Rvvm

variable {δ : Type}

/-! The decision on an entry. -/

section Verdict
variable (fmt : PteFormat) (csr : Csr) (priv : Priv) (access : BitVec 64) (vaddr : Addr) (pos : Walk)
  (pte : BitVec 64)

theorem verdict_pointer (pointer : Pte.pointer pte = true) :
    fmt.verdict csr priv access vaddr pos pte = .descend ⟨fmt.nextTable pte, pos.bitOff - fmt.vpnBits⟩ := by
  simp only [Pte.pointer, Bool.and_eq_true, Bool.not_eq_true'] at pointer
  obtain ⟨⟨valid, inner⟩, readOnly⟩ := pointer
  have present : ¬ pte &&& 0x1#64 = 0 := (and_valid pte).not.mpr (by rw [valid]; decide)
  have table : ¬ pte &&& 0xA#64 ≠ 0 := not_not.mpr ((and_leaf pte).mpr inner)
  have plain : ¬ pte &&& Access.write.mask ≠ 0 := not_not.mpr ((and_write pte).mpr readOnly)
  rw [PteFormat.verdict, if_neg present, if_neg table, if_neg plain]

theorem verdict_last (last : ¬ Pte.pointer pte = true) (next : Walk) :
    fmt.verdict csr priv access vaddr pos pte ≠ .descend next := by
  intro follows
  apply last
  unfold PteFormat.verdict at follows
  split at follows
  case isTrue => cases follows
  case isFalse valid =>
    split at follows
    case isTrue =>
      split at follows
      · cases follows
      · split at follows
        · cases follows
        · dsimp only at follows
          split at follows <;> cases follows
    case isFalse inner =>
      split at follows
      case isTrue => cases follows
      case isFalse plain =>
        have setV := Bool.of_not_eq_false fun off => valid ((and_valid pte).mpr off)
        have clearL := (and_leaf pte).mp (not_not.mp inner)
        have clearW := (and_write pte).mp (not_not.mp plain)
        rw [Pte.pointer, setV, clearL, clearW]
        rfl

end Verdict

/-- The entry where the pointers end, and the position of the loop there. -/
def PteFormat.last (fmt : PteFormat) (mem : GuestRam) (vaddr : Addr) :
    Nat → Walk → HostMem → Option (Walk × Addr)
  | 0, _, _ => none
  | levels + 1, pos, host =>
    match riscvPhysAccess mem (fmt.pteAddr pos vaddr) with
    | none => none
    | some slot =>
      if Pte.pointer (fmt.read host slot) then
        fmt.last mem vaddr levels ⟨fmt.nextTable (fmt.read host slot), pos.bitOff - fmt.vpnBits⟩ host
      else some (pos, slot)

/-- What the loop makes of its decision on the entry at `slot`. -/
def PteFormat.conclude (fmt : PteFormat) (host : HostMem) (slot : Addr) (access : BitVec 64) :
    PteVerdict → Option Addr × HostMem
  | .leaf paddr =>
    (some paddr,
      if fmt.read host slot ≠ pteAd (fmt.read host slot) access then
        fmt.update host slot (pteAd (fmt.read host slot) access)
      else host)
  | _ => (none, host)

section Loop
variable {fmt : PteFormat} {mem : GuestRam} {vaddr : Addr}

theorem walk_last (csr : Csr) (priv : Priv) (access : BitVec 64) (levels : Nat) (pos : Walk) (host : HostMem) :
    fmt.walk mem csr priv access vaddr levels pos host =
      (fmt.last mem vaddr levels pos host).elim (none, host) fun last =>
        fmt.conclude host last.2 access (fmt.verdict csr priv access vaddr last.1 (fmt.read host last.2)) := by
  induction levels generalizing pos with
  | zero => rfl
  | succ levels ih =>
    cases there : riscvPhysAccess mem (fmt.pteAddr pos vaddr) with
    | none =>
      rw [PteFormat.walk, PteFormat.last, there]
      rfl
    | some slot =>
      by_cases pointer : Pte.pointer (fmt.read host slot) = true
      · rw [PteFormat.walk, PteFormat.last, there]
        dsimp only
        rw [verdict_pointer fmt csr priv access vaddr pos _ pointer, if_pos pointer]
        exact ih _
      · have stuck (n : Nat) (stay : fmt.verdict csr priv access vaddr pos (fmt.read host slot) = .stay) :
            fmt.walk mem csr priv access vaddr n pos host = (none, host) := by
          induction n with
          | zero => rfl
          | succ n ih =>
            rw [PteFormat.walk, there]
            dsimp only
            rw [stay]
            exact ih
        rw [PteFormat.walk, PteFormat.last, there]
        dsimp only
        rw [if_neg pointer, Option.elim_some]
        cases judged : fmt.verdict csr priv access vaddr pos (fmt.read host slot) with
        | fault => rfl
        | stay => exact stuck levels judged
        | descend next => exact absurd judged (verdict_last fmt csr priv access vaddr pos _ pointer next)
        | leaf paddr => rfl

end Loop

theorem shiftRight_of_vpn {v w : Addr} (page : vpn v = vpn w) {n : Nat} (high : 12 ≤ n) : v >>> n = w >>> n := by
  have split (u : Addr) : u >>> n = (vpn u) >>> (n - 12) := by
    rw [vpn, ← BitVec.shiftRight_add, Nat.add_sub_cancel' high]
  rw [split v, split w, page]

def SatpMode.format : SatpMode → PteFormat
  | .sv32 => sv32Format
  | _ => sv64Format

def SatpMode.levels : SatpMode → Nat
  | .bare => 0
  | .sv32 => 2
  | .sv39 => 3
  | .sv48 => 4
  | .sv57 => 5

def SatpMode.canonical (mode : SatpMode) (vaddr : Addr) : Bool :=
  match mode with
  | .bare | .sv32 => true
  | _ => vaddr == signExtend64 vaddr (mode.levels * 9 + 12)

namespace Hart
variable (vm : Hart δ)

def translated (vaddr : Addr) (mask : BitVec 64) : Option Addr := (riscvMmuTranslate vm vaddr mask).1

def walks (mask : BitVec 64) : Bool :=
  decide (vm.mmuMode ≠ .bare) && decide ((vm.effectivePriv mask).code < Priv.machine.code)

def rootWalk : Walk := ⟨vm.rootPageTable, 12 + (vm.mmuMode.levels - 1) * vm.mmuMode.format.vpnBits⟩

def lastEntry (vaddr : Addr) : Option (Walk × Addr) :=
  if vm.mmuMode.canonical vaddr then
    vm.mmuMode.format.last vm.mem vaddr vm.mmuMode.levels vm.rootWalk vm.host
  else none

def verdictAt (vaddr : Addr) (mask : BitVec 64) (last : Walk × Addr) : PteVerdict :=
  vm.mmuMode.format.verdict vm.csr (vm.effectivePriv mask) (vm.effectiveAccess mask) vaddr last.1
    (vm.mmuMode.format.read vm.host last.2)

end Hart

def Hart.walked (vm : Hart δ) (vaddr : Addr) (mask : BitVec 64) : Option Addr × HostMem :=
  (vm.lastEntry vaddr).elim (none, vm.host) fun last =>
    vm.mmuMode.format.conclude vm.host last.2 (vm.effectiveAccess mask) (vm.verdictAt vaddr mask last)

section Translate
variable (vm : Hart δ) (vaddr : Addr) (mask : BitVec 64)

theorem riscvMmuTranslateRv64_walked (wide : vm.mmuMode = .sv39 ∨ vm.mmuMode = .sv48 ∨ vm.mmuMode = .sv57) :
    riscvMmuTranslateRv64 vm vaddr (vm.effectivePriv mask) (vm.effectiveAccess mask) vm.mmuMode.levels =
      vm.walked vaddr mask := by
  have scheme : vm.mmuMode.format = sv64Format ∧ 0 < vm.mmuMode.levels ∧
      vm.mmuMode.canonical vaddr = (vaddr == signExtend64 vaddr (vm.mmuMode.levels * 9 + 12)) := by
    rcases wide with mode | mode | mode <;> rw [mode] <;> exact ⟨rfl, by decide, rfl⟩
  obtain ⟨format, positive, canonical⟩ := scheme
  unfold riscvMmuTranslateRv64 Hart.walked Hart.lastEntry Hart.verdictAt Hart.rootWalk
  dsimp only
  rw [format, canonical, show vm.mmuMode.levels * 9 + 12 - 9 + 9 = vm.mmuMode.levels * 9 + 12 by omega,
    walk_last, show sv64Format.vpnBits = 9 from rfl,
    show vm.mmuMode.levels * 9 + 12 - 9 = 12 + (vm.mmuMode.levels - 1) * 9 by omega]
  by_cases same : vaddr = signExtend64 vaddr (vm.mmuMode.levels * 9 + 12)
  · rw [if_neg (not_not.mpr same), if_pos (beq_iff_eq.mpr same)]
  · rw [if_pos same, if_neg (fun equal => same (beq_iff_eq.mp equal)), Option.elim_none]

theorem riscvMmuTranslate_walks :
    riscvMmuTranslate vm vaddr mask =
      if vm.walks mask then ((vm.walked vaddr mask).1, { vm with host := (vm.walked vaddr mask).2 })
      else (some vaddr, vm) := by
  unfold riscvMmuTranslate Hart.walks
  by_cases below : (vm.effectivePriv mask).code < Priv.machine.code
  · rw [decide_eq_true below, Bool.and_true]
    rw [if_pos below]
    have wide := riscvMmuTranslateRv64_walked vm vaddr mask
    obtain ⟨selected, mode⟩ : ∃ mode, vm.mmuMode = mode := ⟨_, rfl⟩
    rw [mode]
    cases selected with
    | bare =>
      dsimp only
      rw [if_neg (by decide), ← mode]
    | sv32 =>
      have walked : riscvMmuTranslateSv32 vm vaddr (vm.effectivePriv mask) (vm.effectiveAccess mask) =
          vm.walked vaddr mask := by
        unfold riscvMmuTranslateSv32 Hart.walked Hart.lastEntry Hart.verdictAt Hart.rootWalk
        rw [walk_last, mode]
        rfl
      rw [if_pos (by decide), ← walked]
    | sv39 =>
      rw [if_pos (by decide), ← wide (.inl mode), mode]
      dsimp only [SatpMode.levels]
    | sv48 =>
      rw [if_pos (by decide), ← wide (.inr (.inl mode)), mode]
      dsimp only [SatpMode.levels]
    | sv57 =>
      rw [if_pos (by decide), ← wide (.inr (.inr mode)), mode]
      dsimp only [SatpMode.levels]
  · rw [decide_eq_false below, Bool.and_false]
    exact if_neg below

end Translate

end Rvvm
