import Rvvm.Cpu.MmioDispatch
import Rvvm.Cpu.PageWalk

/-! The TLB as a cache of translations: what a sound TLB says, that the slow path does not look
at it, and that loads and stores served by it end as those through the page tables. -/
namespace Rvvm
open List Option
open BitVec hiding not_not replicate

variable {δ : Type}

/-! Hits. -/

theorem vpn_ne_top (vaddr : Addr) : vpn vaddr ≠ -1 := by
  intro top
  have bit : (vpn vaddr).getLsbD 63 = (-1 : Addr).getLsbD 63 := congrArg (·.getLsbD 63) top
  rw [vpn, getLsbD_ushiftRight, getLsbD_of_ge _ _ (by decide)] at bit
  cases bit

theorem tlbIndex_pred (page : Addr) : tlbIndex (page - 1) ≠ tlbIndex page := by
  intro same
  have values := congrArg BitVec.toNat same
  have one : (1 : Addr).toNat = 1 := rfl
  simp only [tlbIndex, BitVec.toNat_setWidth, BitVec.toNat_sub, one] at values
  omega

def Hart.emptyTlb (vm : Hart δ) : Hart δ := { vm with tlb := (riscvTlbFlush vm).tlb }

theorem emptyTlb_misses (vm : Hart δ) (vaddr : Addr) (access : Access) :
    vm.emptyTlb.tlbHit vaddr access = false := by
  have slot : vm.emptyTlb.entry vaddr =
      if tlbIndex (vpn vaddr) = 0 then ⟨0, -1, -1, -1⟩ else ⟨0, 0, 0, 0⟩ := by
    unfold Hart.entry Hart.emptyTlb riscvTlbFlush riscvRestartDispatch riscvJitTlbFlush
    dsimp only
    rw [Function.update_apply]
  rw [Hart.tlbHit, slot, beq_eq_false_iff_ne]
  by_cases zero : tlbIndex (vpn vaddr) = 0
  · rw [if_pos zero]
    cases access <;> exact (vpn_ne_top vaddr).symm
  · rw [if_neg zero]
    have page : (0 : Addr) ≠ vpn vaddr := by
      intro first
      rw [← first] at zero
      exact zero rfl
    cases access <;> exact page

def jtlbIndex (pc : Addr) : BitVec 8 := (pc >>> 1).setWidth 8

/-- `riscv_jtlb_lookup` finds a block. -/
def jtlbHit (vm : Hart δ) (pc : Addr) : Bool := (vm.jtlb (jtlbIndex pc)).pc == pc

theorem jitTlbFlush_misses (vm : Hart δ) (pc : Addr) : jtlbHit (riscvJitTlbFlush vm) pc = false := by
  unfold jtlbHit riscvJitTlbFlush
  rw [beq_eq_false_iff_ne]
  dsimp only
  intro hit
  by_cases zero : jtlbIndex pc = 0
  · rw [zero, Function.update_self] at hit
    rw [← hit] at zero
    cases zero
  · rw [Function.update_of_ne zero] at hit
    rw [← hit] at zero
    exact absurd (by decide) zero

/-- What a hit can stem from after `riscv_tlb_put`: a slot left alone, or the page just entered. A
store also lets loads hit. -/
theorem riscvTlbPut_hit {vm : Hart δ} {vaddr ptr : Addr} {kind : Access} {other : Addr} {access : Access}
    (hit : (riscvTlbPut vm vaddr ptr kind).tlbHit other access = true) :
    (tlbIndex (vpn other) ≠ tlbIndex (vpn vaddr) ∧ vm.tlbHit other access = true) ∨
      (vpn other = vpn vaddr ∧
        (access = kind ∨ (kind = .write ∧ access = .read) ∨ vm.tlbHit other access = true)) := by
  by_cases slot : tlbIndex (vpn other) = tlbIndex (vpn vaddr)
  · refine .inr ?_
    have tag : ((vm.entry vaddr).put vaddr ptr kind).tag access = vpn other := by
      rw [Hart.tlbHit, beq_iff_eq, Hart.entry, riscvTlbPut, slot] at hit
      dsimp only at hit
      rwa [Function.update_self] at hit
    have stale : vpn vaddr - 1 ≠ vpn other := fun same => tlbIndex_pred (vpn vaddr) (same ▸ slot)
    have kept : (vm.entry vaddr).tag access = vpn vaddr → vpn other = vpn vaddr →
        vm.tlbHit other access = true := by
      intro old same
      rw [Hart.tlbHit, beq_iff_eq, Hart.entry, same]
      exact old
    cases kind <;> cases access <;> dsimp only [TlbEntry.put, TlbEntry.tag] at tag
    all_goals first
      | exact ⟨tag.symm, by simp⟩
      | exact absurd tag stale
      | split at tag
        · exact absurd tag stale
        next old =>
          rw [not_not] at old
          have same : vpn other = vpn vaddr := tag.symm.trans old
          exact ⟨same, .inr (.inr (kept old same))⟩
  · refine .inl ⟨slot, ?_⟩
    rw [Hart.tlbHit, Hart.entry, riscvTlbPut] at hit
    dsimp only at hit
    rwa [Function.update_of_ne slot] at hit

/-- The host byte behind a physical address: in RAM, or in the memory a device maps directly. -/
def Hart.hostPtr (vm : Hart δ) (paddr : Addr) : Option Addr :=
  match riscvPhysAccess vm.mem paddr with
  | some ptr => some ptr
  | none =>
    (vm.mmioDevs.find? fun dev => dev.contains paddr).bind fun dev =>
      dev.mapping.map (· + (paddr - dev.addr))

/-- The TLB answers as the page tables would: where it hits, the translation under the current
privilege and status succeeds, and leads to the host byte the entry points at. -/
def TlbSound (vm : Hart δ) : Prop :=
  ∀ vaddr access, vm.tlbHit vaddr access = true →
    (riscvMmuTranslate vm vaddr access.mask).1.bind vm.hostPtr = some ((vm.entry vaddr).ptr + vaddr)

/-! The slow path does not read the TLB. -/

/-- `b` is `a` with other translations cached. -/
def SameButTlb (a b : Hart δ) : Prop := b = { a with tlb := b.tlb }

namespace SameButTlb

theorem emptied (vm : Hart δ) : SameButTlb vm vm.emptyTlb := rfl

theorem split {a b : Hart δ} (same : SameButTlb a b) : ∃ tlb, b = { a with tlb := tlb } := ⟨_, same⟩

end SameButTlb

section Slow
variable {a b : Hart δ}

theorem riscvUpdateXlen_sameButTlb (same : SameButTlb a b) :
    SameButTlb (riscvUpdateXlen a) (riscvUpdateXlen b) := by
  obtain ⟨tlb, rfl⟩ := same.split
  unfold riscvUpdateXlen
  dsimp only
  split <;> split <;> rfl

theorem riscvSwitchPriv_sameButTlb (same : SameButTlb a b) (priv : Priv) :
    SameButTlb (riscvSwitchPriv a priv) (riscvSwitchPriv b priv) := by
  obtain ⟨tlb, rfl⟩ := same.split
  unfold riscvSwitchPriv
  by_cases moves : a.privMode ≠ priv
  · rw [if_pos moves, if_pos moves]
    have widened : SameButTlb (riscvUpdateXlen { a with privMode := priv })
        (riscvUpdateXlen { a with privMode := priv, tlb := tlb }) := riscvUpdateXlen_sameButTlb rfl
    obtain ⟨left, after⟩ := widened.split
    rw [after]
    rfl
  · rw [if_neg moves, if_neg moves]
    rfl

theorem riscvTrapPrivHelper_sameButTlb (same : SameButTlb a b) (priv : Priv) :
    SameButTlb (riscvTrapPrivHelper a priv) (riscvTrapPrivHelper b priv) := by
  obtain ⟨tlb, rfl⟩ := same.split
  cases priv <;> rfl

theorem trapTarget_tlb (vm : Hart δ) (tlb : BitVec 8 → TlbEntry) (cause : TrapCause) (priv : Nat) :
    trapTarget { vm with tlb := tlb } cause priv = trapTarget vm cause priv := by
  induction priv with
  | zero => rfl
  | succ priv ih =>
    unfold trapTarget
    rw [ih]

theorem riscvTrap_sameButTlb (same : SameButTlb a b) (cause : TrapCause) (tval : BitVec 64) :
    SameButTlb (riscvTrap a cause tval) (riscvTrap b cause tval) := by
  have rest (priv : Priv) : SameButTlb
      (riscvSwitchPriv (riscvTrapPrivHelper (a.writeTrapInfo priv (BitVec.ofNat 64 cause.code) tval) priv) priv)
      (riscvSwitchPriv (riscvTrapPrivHelper (b.writeTrapInfo priv (BitVec.ofNat 64 cause.code) tval) priv) priv) := by
    refine riscvSwitchPriv_sameButTlb (riscvTrapPrivHelper_sameButTlb ?_ priv) priv
    obtain ⟨tlb, rfl⟩ := same.split
    rfl
  obtain ⟨tlb, rfl⟩ := same.split
  unfold riscvTrap
  by_cases trapped : a.trap = true
  · rw [if_pos trapped, if_pos trapped]
    rfl
  rw [if_neg trapped, if_neg trapped]
  by_cases user : a.userland = true
  · rw [if_pos user, if_pos user]
    rfl
  rw [if_neg user, if_neg user]
  dsimp only
  rw [trapTarget_tlb a tlb cause]
  obtain ⟨left, after⟩ := (rest (Priv.ofCode (trapTarget a cause Priv.machine.code))).split
  rw [after]
  rfl

/-- Two operations that end with the same value, and alike up to the TLB. -/
structure EndsAlike {α : Type} (first second : α × Hart δ) : Prop where
  value : first.1 = second.1
  state : SameButTlb first.2 second.2

theorem riscvMmuFault_alike (same : SameButTlb a b) (cause : TrapCause) (vaddr : Addr) (attr : MmuAttr) :
    SameButTlb (riscvMmuFault a cause vaddr attr) (riscvMmuFault b cause vaddr attr) := by
  unfold riscvMmuFault
  split
  · exact same
  · exact riscvTrap_sameButTlb same cause vaddr

theorem riscvMmuTranslate_tlb (vm : Hart δ) (tlb : BitVec 8 → TlbEntry) (vaddr : Addr) (access : BitVec 64) :
    riscvMmuTranslate { vm with tlb := tlb } vaddr access =
      ((riscvMmuTranslate vm vaddr access).1, { (riscvMmuTranslate vm vaddr access).2 with tlb := tlb }) := by
  unfold riscvMmuTranslate
  by_cases paged : (vm.effectivePriv access).code < Priv.machine.code
  · exact (if_pos paged).trans (by rw [if_pos paged]; rfl)
  · exact (if_neg paged).trans (by rw [if_neg paged])

section
variable (same : SameButTlb a b)
include same

theorem riscvMmioScan_alike (vaddr paddr : Addr) (data : List Byte) (access : Access) :
    EndsAlike (riscvMmioScan a vaddr paddr data access) (riscvMmioScan b vaddr paddr data access) := by
  obtain ⟨tlb, rfl⟩ := same.split
  unfold riscvMmioScan
  cases a.mmioDevs.find? fun dev => dev.contains paddr with
  | none => exact ⟨rfl, rfl⟩
  | some dev =>
    dsimp only
    cases dev.mapping with
    | none => exact ⟨rfl, rfl⟩
    | some mapping =>
      dsimp only
      by_cases page : dev.holdsPage paddr = true
      · rw [if_pos page, if_pos page]
        split <;> exact ⟨rfl, rfl⟩
      · rw [if_neg page, if_neg page]
        split <;> exact ⟨rfl, rfl⟩

theorem riscvRamAccess_alike (vaddr paddr ptr : Addr) (data : List Byte)
    (access : Access) :
    EndsAlike (riscvRamAccess a vaddr paddr ptr data access) (riscvRamAccess b vaddr paddr ptr data access) := by
  obtain ⟨tlb, rfl⟩ := same.split
  unfold riscvRamAccess
  split <;> exact ⟨rfl, rfl⟩

section
variable (vaddr : Addr) (data : List Byte) (attr : MmuAttr) (access : Access)

theorem riscvMmuOpPage_alike :
    EndsAlike (riscvMmuOpPage a vaddr data attr access) (riscvMmuOpPage b vaddr data attr access) := by
  obtain ⟨tlb, rfl⟩ := same.split
  unfold riscvMmuOpPage
  rw [riscvMmuTranslate_tlb a tlb]
  obtain ⟨result, mid⟩ := riscvMmuTranslate a vaddr (if attr.noProt then debugAccess else access.mask)
  have alike : SameButTlb mid { mid with tlb := tlb } := rfl
  cases result with
  | none => exact ⟨rfl, riscvMmuFault_alike alike access.pagefault vaddr attr⟩
  | some paddr =>
    dsimp only
    cases riscvPhysAccess mid.mem paddr with
    | some ptr =>
      have moved := riscvRamAccess_alike alike vaddr paddr ptr data access
      exact ⟨congrArg some moved.value, moved.state⟩
    | none =>
      have scanned := riscvMmioScan_alike alike vaddr paddr data access
      generalize riscvMmioScan mid vaddr paddr data access = first at scanned
      generalize riscvMmioScan { mid with tlb := tlb } vaddr paddr data access = second at scanned
      obtain ⟨value, left⟩ := first
      obtain ⟨value', right⟩ := second
      obtain ⟨rfl, state⟩ := scanned
      cases value with
      | some read => exact ⟨rfl, state⟩
      | none =>
        dsimp only
        split
        · exact ⟨rfl, state⟩
        · exact ⟨rfl, riscvMmuFault_alike state access.physFault vaddr attr⟩

theorem riscvMmuOp_alike :
    EndsAlike (riscvMmuOp a vaddr data attr access) (riscvMmuOp b vaddr data attr access) := by
  unfold riscvMmuOp
  split
  · exact riscvMmuOpPage_alike same vaddr data attr access
  · dsimp only
    have first := riscvMmuOpPage_alike same vaddr
      (data.take (0x1000 - (vaddr &&& 0xFFF#64).toNat)) attr access
    generalize riscvMmuOpPage a vaddr _ attr access = left at first ⊢
    generalize riscvMmuOpPage b vaddr _ attr access = right at first ⊢
    obtain ⟨value, mid⟩ := left
    obtain ⟨value', mid'⟩ := right
    obtain ⟨rfl, state⟩ := first
    cases value with
    | none => exact ⟨rfl, state⟩
    | some head =>
      dsimp only
      have second := riscvMmuOpPage_alike state
        (vaddr + BitVec.ofNat 64 (0x1000 - (vaddr &&& 0xFFF#64).toNat))
        (data.drop (0x1000 - (vaddr &&& 0xFFF#64).toNat)) attr access
      generalize riscvMmuOpPage mid _ _ attr access = left at second ⊢
      generalize riscvMmuOpPage mid' _ _ attr access = right at second ⊢
      obtain ⟨value, last⟩ := left
      obtain ⟨value', last'⟩ := right
      obtain ⟨rfl, state⟩ := second
      cases value <;> exact ⟨rfl, state⟩

end

end

end Slow

/-! An access that the slow path serves from host memory. -/

/-- `b` is `a` up to the TLB, the page tracking and the devices' own state. -/
def SameForGuest (a b : Hart δ) : Prop :=
  b = { a with tlb := b.tlb, pages := b.pages, devices := b.devices }

theorem SameButTlb.forGuest {a b : Hart δ} (same : SameButTlb a b) : SameForGuest a b := by
  obtain ⟨tlb, rfl⟩ := same.split
  rfl

theorem SameForGuest.split {a b : Hart δ} (same : SameForGuest a b) :
    ∃ tlb pages devices, b = { a with tlb := tlb, pages := pages, devices := devices } :=
  ⟨_, _, _, same⟩

/-- What an access at a host pointer yields, and the memory it leaves. -/
def HostMem.access (host : HostMem) (ptr : Addr) (data : List Byte) (access : Access) : List Byte × HostMem :=
  if access = .write then (data, host.store ptr data) else (host.load ptr data.length, host)

/-- The access is made at `ptr` and has no other effect on the guest. -/
structure Serves (vm : Hart δ) (ptr : Addr) (data : List Byte) (access : Access)
    (result : Option (List Byte) × Hart δ) : Prop where
  value : result.1 = some (vm.host.access ptr data access).1
  state : SameForGuest { vm with host := (vm.host.access ptr data access).2 } result.2

/-- The callbacks fill the buffer they are given, and the write callback leaves it as it is. -/
def MmioDev.KeepsBuffer (dev : MmioDev δ) : Prop :=
  ∀ devices data offset,
    (riscvMmioCall dev devices data offset data.length .write).1 = data ∧
      ∀ access, (riscvMmioCall dev devices data offset data.length access).1.length = data.length

section Serve
variable {vm : Hart δ} {vaddr paddr ptr : Addr} {data : List Byte} {access : Access}

theorem riscvRamAccess_serves :
    Serves vm ptr data access
      (some (riscvRamAccess vm vaddr paddr ptr data access).1,
        (riscvRamAccess vm vaddr paddr ptr data access).2) := by
  unfold riscvRamAccess
  by_cases store : access = .write
  · rw [if_pos store]
    refine ⟨?_, ?_⟩ <;> rw [HostMem.access, if_pos store]
    rfl
  · rw [if_neg store]
    refine ⟨?_, ?_⟩ <;> rw [HostMem.access, if_neg store]
    · rfl
    · rfl

theorem riscvMmioScan_serves {dev : MmioDev δ} {mapping : Addr}
    (found : (vm.mmioDevs.find? fun dev => dev.contains paddr) = some dev)
    (mapped : dev.mapping = some mapping) (keeps : dev.KeepsBuffer) :
    Serves vm (mapping + (paddr - dev.addr)) data access (riscvMmioScan vm vaddr paddr data access) := by
  obtain ⟨same, length⟩ := keeps vm.devices data (paddr - dev.addr)
  unfold riscvMmioScan
  rw [found]
  dsimp only
  rw [mapped]
  dsimp only
  by_cases store : access = .write
  · subst store
    rw [if_pos rfl, same]
    refine ⟨rfl, ?_⟩
    split <;> rfl
  · rw [if_neg store, length access]
    refine ⟨?_, ?_⟩ <;> rw [HostMem.access, if_neg store]
    · split <;> rfl
    · split <;> rfl

theorem riscvMmuOpPage_serves
    (there : (riscvMmuTranslate vm vaddr access.mask).1.bind vm.hostPtr = some ptr)
    (settled : (riscvMmuTranslate vm vaddr access.mask).2.host = vm.host)
    (keeps : ∀ dev ∈ vm.mmioDevs, dev.mapping.isSome = true → dev.KeepsBuffer) :
    Serves vm ptr data access (riscvMmuOpPage vm vaddr data .plain access) := by
  have same : (riscvMmuTranslate vm vaddr access.mask).2 = vm := by
    rw [riscvMmuTranslate_host, settled]
  obtain ⟨paddr, translated, host⟩ := bind_eq_some_iff.mp there
  have out : riscvMmuTranslate vm vaddr access.mask = (some paddr, vm) := Prod.ext translated same
  unfold riscvMmuOpPage
  rw [if_neg (by decide), out]
  dsimp only
  unfold Hart.hostPtr at host
  cases inRam : riscvPhysAccess vm.mem paddr with
  | some p =>
    rw [inRam] at host
    obtain rfl := some.inj host
    exact riscvRamAccess_serves
  | none =>
    rw [inRam] at host
    obtain ⟨dev, found, direct⟩ := bind_eq_some_iff.mp host
    obtain ⟨mapping, mapped, rfl⟩ := map_eq_some_iff.mp direct
    have served : Serves vm (mapping + (paddr - dev.addr)) data access
        (riscvMmioScan vm vaddr paddr data access) :=
      riscvMmioScan_serves found mapped (keeps dev (mem_of_find?_eq_some found) (mapped ▸ rfl))
    generalize riscvMmioScan vm vaddr paddr data access = scan at served ⊢
    obtain ⟨value, last⟩ := scan
    obtain ⟨rfl, state⟩ := served
    exact ⟨rfl, state⟩

theorem aligned_inPage {size : Nat} (sized : size ∈ [1, 2, 4, 8]) (aligned : vaddrAligned vaddr size = true) :
    riscvBlockInPage vaddr size = true := by
  have offset : (vaddr &&& 0xFFF#64).toNat = vaddr.toNat % 0x1000 := by
    rw [toNat_and]
    exact Nat.and_two_pow_sub_one_eq_mod vaddr.toNat 12
  have clear : vaddr &&& (BitVec.ofNat 64 size - 1) = 0 := beq_iff_eq.mp aligned
  rw [riscvBlockInPage, decide_eq_true_eq]
  simp only [mem_cons, not_mem_nil, or_false] at sized
  rcases sized with rfl | rfl | rfl | rfl
  · omega
  · have divides := dvd_of_and_pred vaddr ⟨1, rfl⟩ (by decide) clear
    omega
  · have divides := dvd_of_and_pred vaddr ⟨2, rfl⟩ (by decide) clear
    omega
  · have divides := dvd_of_and_pred vaddr ⟨3, rfl⟩ (by decide) clear
    omega

end Serve

/-- The loads and stores of `riscv_mmu.h`. -/
inductive MemCall
  | load (kind : LoadKind)
  | loadDouble
  | loadFloat
  | store (kind : StoreKind)
  | storeDouble
  | storeFloat

namespace MemCall

def run : MemCall → Hart δ → Addr → BitVec 5 → Hart δ
  | load kind => riscvLoad kind
  | loadDouble => riscvLoadDouble
  | loadFloat => riscvLoadFloat
  | store kind => riscvStore kind
  | storeDouble => riscvStoreDouble
  | storeFloat => riscvStoreFloat

def access : MemCall → Access
  | load _ | loadDouble | loadFloat => .read
  | store _ | storeDouble | storeFloat => .write

def size : MemCall → Nat
  | load kind => kind.size
  | store kind => kind.size
  | loadDouble | storeDouble => 8
  | loadFloat | storeFloat => 4

def FailsToLoad (call : MemCall) (vm : Hart δ) (vaddr : Addr) : Prop :=
  call.access = .read ∧ (riscvLoadBytes vm vaddr call.size).1 = none

theorem size_mem (call : MemCall) : call.size ∈ [1, 2, 4, 8] := by
  cases call with
  | load kind | store kind => cases kind <;> decide
  | loadDouble | loadFloat | storeDouble | storeFloat => decide

end MemCall

section Compare
variable (vm : Hart δ) (vaddr : Addr)

/-- The leaf entry behind a hit has its accessed bit set, and its dirty bit for a write: the walk
would write nothing. -/
def AdSettled (access : Access) : Prop :=
  vm.tlbHit vaddr access = true → (riscvMmuTranslate vm vaddr access.mask).2.host = vm.host

variable {vm vaddr}

section Agrees
variable (sound : TlbSound vm) (keeps : ∀ dev ∈ vm.mmioDevs, dev.mapping.isSome = true → dev.KeepsBuffer)
include sound keeps

theorem emptyTlb_serves {data : List Byte} {access : Access} (settled : AdSettled vm vaddr access)
    (hit : vm.tlbHit vaddr access = true) (sized : data.length ∈ [1, 2, 4, 8])
    (aligned : vaddrAligned vaddr data.length = true) :
    Serves vm ((vm.entry vaddr).ptr + vaddr) data access (riscvMmuOp vm.emptyTlb vaddr data .plain access) := by
  have walk := riscvMmuTranslate_tlb vm (riscvTlbFlush vm).tlb vaddr access.mask
  have served : Serves vm.emptyTlb ((vm.entry vaddr).ptr + vaddr) data access
      (riscvMmuOpPage vm.emptyTlb vaddr data .plain access) := by
    refine riscvMmuOpPage_serves ?_ ?_ keeps
    · exact (congrArg (fun out => out.1.bind vm.hostPtr) walk).trans (sound vaddr access hit)
    · exact (congrArg (fun out => out.2.host) walk).trans (settled hit)
  unfold riscvMmuOp
  rw [if_pos (aligned_inPage sized aligned)]
  refine ⟨served.value, ?_⟩
  obtain ⟨tlb, pages, devices, last⟩ := served.state.split
  rw [last]
  rfl

theorem riscvLoadBytes_agrees (settled : AdSettled vm vaddr .read) {size : Nat} (sized : size ∈ [1, 2, 4, 8]) :
    (riscvLoadBytes vm.emptyTlb vaddr size).1 = (riscvLoadBytes vm vaddr size).1 ∧
      SameForGuest (riscvLoadBytes vm vaddr size).2 (riscvLoadBytes vm.emptyTlb vaddr size).2 := by
  have length : (replicate size (0 : Byte)).length = size := length_replicate
  unfold riscvLoadBytes
  rw [emptyTlb_misses, Bool.false_and, if_neg nofun]
  by_cases fast : (vm.tlbHit vaddr .read && vaddrAligned vaddr size) = true
  · rw [if_pos fast]
    obtain ⟨hit, aligned⟩ := Bool.and_eq_true_iff.mp fast
    have served := emptyTlb_serves sound keeps settled hit (length.symm ▸ sized) (length.symm ▸ aligned)
    refine ⟨?_, served.state⟩
    rw [served.value, HostMem.access, if_neg (by decide), length]
  · rw [if_neg fast]
    have alike : EndsAlike (riscvMmuOp vm vaddr (replicate size 0) .plain .read)
        (riscvMmuOp vm.emptyTlb vaddr (replicate size 0) .plain .read) :=
      riscvMmuOp_alike (.emptied vm) vaddr _ .plain .read
    exact ⟨alike.value.symm, alike.state.forGuest⟩

theorem riscvStoreBytes_agrees (settled : AdSettled vm vaddr .write) {data : List Byte}
    (sized : data.length ∈ [1, 2, 4, 8]) :
    SameForGuest (riscvStoreBytes vm vaddr data) (riscvStoreBytes vm.emptyTlb vaddr data) := by
  unfold riscvStoreBytes
  rw [emptyTlb_misses, Bool.false_and]
  by_cases fast : (vm.tlbHit vaddr .write && vaddrAligned vaddr data.length) = true
  · rw [if_pos fast]
    obtain ⟨hit, aligned⟩ := Bool.and_eq_true_iff.mp fast
    exact (emptyTlb_serves sound keeps settled hit sized aligned).state
  · rw [if_neg fast]
    exact (riscvMmuOp_alike (.emptied vm) vaddr data .plain .write).state.forGuest

end Agrees

variable {a b : Hart δ}

section
variable (same : SameForGuest a b) (reg : BitVec 5) (data : BitVec 64)
include same reg data

theorem writeReg_forGuest :
    SameForGuest (a.writeReg reg data) (b.writeReg reg data) := by
  obtain ⟨tlb, pages, devices, rfl⟩ := same.split
  rfl

theorem writeFpuReg_forGuest :
    SameForGuest (a.writeFpuReg reg data) (b.writeFpuReg reg data) := by
  obtain ⟨tlb, pages, devices, rfl⟩ := same.split
  unfold Hart.writeFpuReg riscvFpuSetDirty
  split <;> rfl

end

theorem wordBytes_length (val : BitVec 64) (size : Nat) : (wordBytes val size).length = size := by
  rw [wordBytes, length_map, length_range]

/-- A load delivers the bytes it got; without any it leaves the hart as the access did. -/
def loaded (deliver : Hart δ → List Byte → Hart δ) : Option (List Byte) × Hart δ → Hart δ
  | (some bytes, vm) => deliver vm bytes
  | (none, vm) => vm

variable {call : MemCall}

theorem MemCall.run_loaded (reads : call.access = .read) (reg : BitVec 5) :
    ∃ deliver : Hart δ → List Byte → Hart δ,
      (∀ vm vaddr, call.run vm vaddr reg = loaded deliver (riscvLoadBytes vm vaddr call.size)) ∧
        ∀ a b bytes, SameForGuest a b → SameForGuest (deliver a bytes) (deliver b bytes) := by
  cases call with
  | load kind =>
    exact ⟨fun vm bytes => vm.writeReg reg (kind.extend (leWord bytes)), fun vm vaddr => rfl,
      fun a b bytes same => writeReg_forGuest same reg _⟩
  | loadDouble =>
    exact ⟨fun vm bytes => vm.writeFpuReg reg (leWord bytes), fun vm vaddr => rfl,
      fun a b bytes same => writeFpuReg_forGuest same reg _⟩
  | loadFloat =>
    exact ⟨fun vm bytes => vm.writeFpuReg reg (leWord bytes ||| 0xFFFFFFFF00000000#64), fun vm vaddr => rfl,
      fun a b bytes same => writeFpuReg_forGuest same reg _⟩
  | store kind | storeDouble | storeFloat => cases reads

theorem MemCall.run_stored (writes : call.access = .write) (vm : Hart δ) (reg : BitVec 5) :
    ∃ val, ∀ vaddr tlb, call.run { vm with tlb := tlb } vaddr reg =
      riscvStoreBytes { vm with tlb := tlb } vaddr (wordBytes val call.size) := by
  cases call with
  | load kind | loadDouble | loadFloat => cases writes
  | store kind => exact ⟨vm.registers reg, fun vaddr tlb => rfl⟩
  | storeDouble | storeFloat => exact ⟨vm.fpuRegisters reg, fun vaddr tlb => rfl⟩

theorem MemCall.run_agrees (sound : TlbSound vm)
    (keeps : ∀ dev ∈ vm.mmioDevs, dev.mapping.isSome = true → dev.KeepsBuffer) (call : MemCall)
    (settled : AdSettled vm vaddr call.access) (reg : BitVec 5) :
    SameForGuest (call.run vm vaddr reg) (call.run vm.emptyTlb vaddr reg) := by
  cases kind : call.access with
  | read =>
    obtain ⟨deliver, loads, carries⟩ := call.run_loaded kind reg
    obtain ⟨value, state⟩ := riscvLoadBytes_agrees sound keeps (kind ▸ settled) call.size_mem
    rw [loads, loads]
    generalize riscvLoadBytes vm vaddr call.size = first at value state ⊢
    generalize riscvLoadBytes vm.emptyTlb vaddr call.size = second at value state ⊢
    obtain ⟨bytes, left⟩ := first
    obtain ⟨bytes', right⟩ := second
    subst value
    cases bytes' with
    | none => exact state
    | some bytes => exact carries left right bytes state
  | write =>
    obtain ⟨val, stores⟩ := call.run_stored kind vm reg
    have direct : call.run vm vaddr reg = _ := stores vaddr vm.tlb
    have emptied : call.run vm.emptyTlb vaddr reg = _ := stores vaddr (riscvTlbFlush vm).tlb
    rw [direct, emptied]
    exact riscvStoreBytes_agrees sound keeps (kind ▸ settled)
      ((wordBytes_length val call.size).symm ▸ call.size_mem)
  | exec => cases call <;> cases kind

theorem OnlyMemory.keeps_registers (memory : OnlyMemory a b) :
    b.registers = a.registers ∧ b.fpuRegisters = a.fpuRegisters := by
  rw [memory]
  exact ⟨rfl, rfl⟩

theorem MemCall.run_failed (fails : call.FailsToLoad vm vaddr) (reg : BitVec 5) :
    (call.run vm vaddr reg).registers = vm.registers ∧
      (call.run vm vaddr reg).fpuRegisters = vm.fpuRegisters := by
  obtain ⟨reads, none⟩ := fails
  obtain ⟨deliver, loads, -⟩ := call.run_loaded reads reg
  have result := riscvLoadBytes_result vm vaddr call.size
  rw [loads]
  generalize riscvLoadBytes vm vaddr call.size = out at none result ⊢
  cases result with
  | done value memory => cases none
  | @faulted last memory cause tval may =>
    have data := riscvTrap_data last cause tval
    exact ⟨data.registers.trans memory.keeps_registers.1, data.fpuRegisters.trans memory.keeps_registers.2⟩
  | refused memory => exact memory.keeps_registers

/-- With a sound TLB a load or store leaves the guest what it would find with an empty one, if a
page behind a hit has no accessed or dirty bit left to set and mapped devices leave the buffer of a
store alone. A load that faults leaves the registers. -/
theorem fast_path_agrees (sound : TlbSound vm) (call : MemCall) (settled : AdSettled vm vaddr call.access)
    (keeps : ∀ dev ∈ vm.mmioDevs, dev.mapping.isSome = true → dev.KeepsBuffer) (reg : BitVec 5) :
    SameForGuest (call.run vm vaddr reg) (call.run vm.emptyTlb vaddr reg) ∧
      (call.FailsToLoad vm vaddr →
        (call.run vm vaddr reg).registers = vm.registers ∧
          (call.run vm vaddr reg).fpuRegisters = vm.fpuRegisters) :=
  ⟨call.run_agrees sound keeps settled reg, fun fails => MemCall.run_failed fails reg⟩

end Compare

/-! A page of Sv32 that is cached for reading. -/

def cachedRam : GuestRam where
  __ := tableRam
  size := 0x2000
  fits := by decide
  mapped := by decide
  sizeAligned := rfl

def megapage (accessed : Bool) : BitVec 64 := if accessed then 0x20000043 else 0x20000003

def megapageHart (accessed : Bool) : Hart Unit :=
  { riscvHartInit cachedRam (fun _ => 0) [] () false false with
    host := fun p => if p - 0x10800 < 4 then leByte (megapage accessed) (p - 0x10800) else 0
    rootPageTable := 0x80000000
    mmuMode := .sv32
    privMode := .supervisor }

def cachedHart (accessed : Bool) : Hart Unit :=
  riscvTlbPut (megapageHart accessed).emptyTlb 0x80001000 0x11000 .read

theorem vaddr_split (vaddr : Addr) : vaddr = (vpn vaddr <<< 12) ||| (vaddr &&& 0xFFF#64) := by
  apply eq_of_getLsbD_eq
  intro b below
  have mask : (0xFFF#64).getLsbD b = decide (b < 12) := getLsbD_bitMask 12 b below
  rw [getLsbD_or, vpn, getLsbD_shiftLeft, getLsbD_ushiftRight, getLsbD_and, mask]
  by_cases low : b < 12
  · simp [low]
  · rw [Nat.add_sub_cancel' (not_lt.mp low)]
    simp [low, below]

section Cached
variable {vaddr : Addr} (page : vpn vaddr = 0x80001#64)
include page

theorem cached_paddr : 0x80000000#64 ||| (vaddr &&& bitMask 22) = vaddr := by
  have split := vaddr_split vaddr
  rw [page] at split
  have low : (vaddr &&& 0xFFF#64) &&& bitMask 22 = vaddr &&& 0xFFF#64 := by
    rw [BitVec.and_assoc]
    exact congrArg (vaddr &&& ·) (by decide)
  calc 0x80000000#64 ||| (vaddr &&& bitMask 22)
      = 0x80000000#64 ||| (((0x80001#64 <<< 12) ||| (vaddr &&& 0xFFF#64)) &&& bitMask 22) := by rw [← split]
    _ = 0x80000000#64 ||| (((0x80001#64 <<< 12) &&& bitMask 22) ||| (vaddr &&& 0xFFF#64)) := by
        rw [BitVec.and_or_distrib_right, low]
    _ = (0x80001#64 <<< 12) ||| (vaddr &&& 0xFFF#64) := by
        rw [← BitVec.or_assoc]
        exact congrArg (· ||| (vaddr &&& 0xFFF#64)) (by decide)
    _ = vaddr := split.symm

theorem cached_pteAddr : sv32Format.pteAddr ⟨0x80000000, 22⟩ vaddr = 0x80000800 := by
  have index : vaddr >>> 22 = 0x200#64 := by
    have shifted := congrArg (fun v : Addr => v >>> 10) page
    exact (shiftRight_add vaddr 12 10).trans shifted
  unfold PteFormat.pteAddr
  rw [index]
  rfl

theorem cached_verdict (accessed : Bool) :
    sv32Format.verdict (cachedHart accessed).csr .supervisor Access.read.mask vaddr ⟨0x80000000, 22⟩
      (megapage accessed) = .leaf vaddr := by
  have leaf : sv32Format.verdict (cachedHart accessed).csr .supervisor Access.read.mask vaddr
      ⟨0x80000000, 22⟩ (megapage accessed) = .leaf (0x80000000#64 ||| (vaddr &&& bitMask 22)) := by
    cases accessed <;> rfl
  rw [leaf, cached_paddr page]

theorem cached_translate (accessed : Bool) :
    (riscvMmuTranslate (cachedHart accessed) vaddr Access.read.mask).1 = some vaddr ∧
      (accessed = true → (riscvMmuTranslate (cachedHart accessed) vaddr Access.read.mask).2.host =
        (cachedHart accessed).host) := by
  have inRam : riscvPhysAccess cachedRam 0x80000800 = some 0x10800 := by decide +kernel
  have slot : riscvPhysAccess (cachedHart accessed).mem 0x80000800 = some 0x10800 := inRam
  have entry : sv32Format.read (cachedHart accessed).host 0x10800 = megapage accessed := by
    cases accessed <;> decide +kernel
  have walked : riscvMmuTranslateSv32 (cachedHart accessed) vaddr .supervisor Access.read.mask =
      (some vaddr, if megapage accessed ≠ pteAd (megapage accessed) Access.read.mask then
        sv32Format.update (cachedHart accessed).host 0x10800 (pteAd (megapage accessed) Access.read.mask)
        else (cachedHart accessed).host) := by
    unfold riscvMmuTranslateSv32 PteFormat.walk
    have root : (cachedHart accessed).rootPageTable = 0x80000000 := rfl
    rw [root, cached_pteAddr page, slot]
    dsimp only
    rw [entry, cached_verdict page accessed]
  have out : riscvMmuTranslate (cachedHart accessed) vaddr Access.read.mask =
      ((riscvMmuTranslateSv32 (cachedHart accessed) vaddr .supervisor Access.read.mask).1,
        { cachedHart accessed with
          host := (riscvMmuTranslateSv32 (cachedHart accessed) vaddr .supervisor Access.read.mask).2 }) := by
    have priv : (cachedHart accessed).effectivePriv Access.read.mask = .supervisor := by
      cases accessed <;> decide +kernel
    have plain : (cachedHart accessed).effectiveAccess Access.read.mask = Access.read.mask := by
      cases accessed <;> decide +kernel
    unfold riscvMmuTranslate
    rw [priv, plain]
    rfl
  rw [out, walked]
  refine ⟨rfl, ?_⟩
  rintro rfl
  have set : ¬ megapage true ≠ pteAd (megapage true) Access.read.mask := by decide
  rw [if_neg set]

end Cached

theorem cachedHart_hit {accessed : Bool} {vaddr : Addr} {access : Access}
    (hit : (cachedHart accessed).tlbHit vaddr access = true) : vpn vaddr = 0x80001#64 ∧ access = .read := by
  rcases riscvTlbPut_hit hit with ⟨-, old⟩ | ⟨page, granted⟩
  · rw [emptyTlb_misses] at old
    cases old
  · refine ⟨page, ?_⟩
    rcases granted with same | ⟨store, -⟩ | old
    · exact same
    · cases store
    · rw [emptyTlb_misses] at old
      cases old

theorem cachedHart_sound (accessed : Bool) : TlbSound (cachedHart accessed) := by
  intro vaddr access hit
  obtain ⟨page, rfl⟩ := cachedHart_hit hit
  have entry : ((cachedHart accessed).entry vaddr).ptr = 0x11000#64 - 0x80001000#64 := by
    unfold Hart.entry
    rw [page]
    rfl
  have range : vaddr.toNat / 4096 = 0x80001 := by
    have value := congrArg BitVec.toNat page
    rwa [vpn, toNat_ushiftRight, Nat.shiftRight_eq_div_pow] at value
  have inRam : riscvPhysAccess cachedRam vaddr = some (0x10000#64 + (vaddr - 0x80000000#64)) := by
    refine if_pos ⟨?_, ?_⟩
    · change 0x80000000#64 ≤ vaddr
      bv_omega
    · change vaddr - 0x80000000#64 < 0x2000#64
      bv_omega
  rw [(cached_translate page accessed).1]
  change (match riscvPhysAccess cachedRam vaddr with
    | some ptr => some ptr
    | none => _) = _
  rw [inRam]
  refine congrArg some ?_
  bv_omega

theorem cachedHart_settled (vaddr : Addr) (access : Access) : AdSettled (cachedHart true) vaddr access := by
  intro hit
  obtain ⟨page, rfl⟩ := cachedHart_hit hit
  exact (cached_translate page true).2 rfl

/-- A load that hits, and one from an unmapped page. -/
theorem fast_path_agrees_cachedHart :
    ((cachedHart true).tlbHit 0x80001004 .read = true ∧
      SameForGuest ((MemCall.load .s16).run (cachedHart true) 0x80001004 5)
        ((MemCall.load .s16).run (cachedHart true).emptyTlb 0x80001004 5)) ∧
    ((MemCall.load .u64).FailsToLoad (cachedHart true) 0x1000 ∧
      ((MemCall.load .u64).run (cachedHart true) 0x1000 5).registers = (cachedHart true).registers) := by
  have served := fast_path_agrees (cachedHart_sound true) (.load .s16) (cachedHart_settled 0x80001004 .read)
    (fun _ none => absurd none not_mem_nil) 5
  have faulted := fast_path_agrees (cachedHart_sound true) (.load .u64) (cachedHart_settled 0x1000 .read)
    (fun _ none => absurd none not_mem_nil) 5
  have fails : (MemCall.load .u64).FailsToLoad (cachedHart true) 0x1000 := ⟨rfl, by decide +kernel⟩
  exact ⟨⟨by decide +kernel, served.1⟩, fails, (faulted.2 fails).1⟩

/-- The accessed bit of a cached page was cleared without a fence: a load served by the TLB does
not set it again, the walk does. -/
theorem hit_leaves_accessed_clear :
    TlbSound (cachedHart false) ∧ (cachedHart false).tlbHit 0x80001004 .read = true ∧
      ((MemCall.load .s16).run (cachedHart false) 0x80001004 5).host 0x10800 = 0x03 ∧
      ((MemCall.load .s16).run (cachedHart false).emptyTlb 0x80001004 5).host 0x10800 = 0x43 :=
  ⟨cachedHart_sound false, by decide +kernel, by decide +kernel, by decide +kernel⟩

end Rvvm
