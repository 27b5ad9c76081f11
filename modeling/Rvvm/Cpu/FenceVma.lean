import Rvvm.Library.Runs
import Rvvm.Cpu.Base
import Rvvm.Cpu.Translation

/-! `SFENCE.VMA` for one address, and what is left behind of the leaf that mapped it. Every cached
translation of a hart carries the leaves it was filled from: TLB entries, the blocks of the JTLB,
the fetch window of the dispatch loop and the trace in progress. -/
namespace Rvvm.Fence
open BitVec List Option Runs
open Function (update update_of_ne update_self)

variable {δ : Type}

/-- A leaf entry of the page tables: where it is, how many low bits of an address it leaves alone,
and the other bits of the addresses it maps. -/
structure Leaf where
  slot : Addr
  bitOff : Nat
  base : Addr
  deriving DecidableEq, Repr

def Leaf.covers (leaf : Leaf) (vaddr : Addr) : Prop := vaddr >>> leaf.bitOff = leaf.base

instance (leaf : Leaf) (vaddr : Addr) : Decidable (leaf.covers vaddr) :=
  inferInstanceAs (Decidable (vaddr >>> leaf.bitOff = leaf.base))

/-- The leaf a translation goes through, if it goes through the page tables. -/
def leafOf (vm : Hart δ) (vaddr : Addr) (mask : BitVec 64) : List Leaf :=
  if vm.walks mask then
    (vm.lastEntry vaddr).toList.map fun last => ⟨last.2, last.1.bitOff, vaddr >>> last.1.bitOff⟩
  else []

/-- `insn_ptr` and `insn_page`. -/
structure Window where
  insnPtr : Addr
  insnPage : Addr
  leaves : List Leaf

structure Trace where
  virtPc : Addr
  physPc : Addr
  leaves : List Leaf

structure State (δ : Type) where
  hart : Hart δ
  window : Option Window
  tracing : Option Trace
  tlbLeaves : BitVec 8 → List Leaf
  jtlbLeaves : BitVec 8 → List Leaf

/-! The JTLB. -/

def riscvJitTlbPut (vm : Hart δ) (vaddr block : Addr) : Hart δ :=
  { vm with jtlb := update vm.jtlb (jtlbIndex vaddr) ⟨block, vaddr⟩ }

/-- `riscv_virt_translate_e`, and the leaves behind its answer. -/
def riscvVirtTranslateE (s : State δ) (vaddr : Addr) : Option (Addr × List Leaf) × Hart δ :=
  let vm := s.hart
  if vm.tlbHit vaddr .exec then
    (some ((vm.entry vaddr).ptr + vaddr - vm.mem.data + vm.mem.addr, s.tlbLeaves (tlbIndex (vpn vaddr))), vm)
  else
    match riscvMmuTranslate vm vaddr Access.exec.mask with
    | (none, vm) => (none, vm)
    | (some paddr, vm') => (some (paddr, leafOf vm vaddr Access.exec.mask), vm')

/-! Accesses. -/

/-- An access to the physical address is cached in the TLB; `scans` if it goes on to the devices. -/
def enters (vm : Hart δ) (scans : Bool) (paddr : Addr) : Bool :=
  (riscvPhysAccess vm.mem paddr).isSome ||
    scans && (vm.mmioDevs.find? fun dev => dev.contains paddr).any fun dev => dev.mapping.isSome && dev.holdsPage paddr

def opMask (attr : MmuAttr) (access : Access) : BitVec 64 := if attr.noProt then debugAccess else access.mask

def opEnters (vm : Hart δ) (vaddr : Addr) (attr : MmuAttr) (access : Access) : Bool :=
  (vm.translated vaddr (opMask attr access)).any (enters vm true)

def ptrEnters (vm : Hart δ) (vaddr : Addr) (size : Nat) (bounce : Bool) (access : Access) : Bool :=
  riscvBlockInPage vaddr size && (vm.translated vaddr access.mask).any (enters vm bounce)

def serves (vm : Hart δ) (vaddr : Addr) : Bool :=
  vm.tlbHit vaddr .read || vm.tlbHit vaddr .write || vm.tlbHit vaddr .exec

namespace State
variable (s : State δ)

/-- The window does not outlive the loop. -/
def settle : State δ := if s.hart.running then s else { s with window := none }

/-- The slot of the page now also comes from the leaf; only from it, if it served another page before. -/
def enter (vaddr : Addr) (leaves : List Leaf) : BitVec 8 → List Leaf :=
  update s.tlbLeaves (tlbIndex (vpn vaddr))
    (leaves ++ if serves s.hart vaddr then s.tlbLeaves (tlbIndex (vpn vaddr)) else [])

def lookup (blocks : Addr → Option Addr) : State δ :=
  let virtPc := s.hart.pc
  match riscvVirtTranslateE s virtPc with
  | (none, vm) => { s with hart := vm }
  | (some (physPc, leaves), vm) =>
    match blocks physPc with
    | some block =>
      { s with
        hart := riscvJitTlbPut vm virtPc block
        jtlbLeaves := update s.jtlbLeaves (jtlbIndex virtPc) leaves }
    | none => { s with hart := riscvJitTlbFlush vm, tracing := some ⟨virtPc, physPc, leaves⟩ }

/-- `riscv_jit_finalize` on a block that is not empty; `none` when the code cache is full. -/
def finalize (block : Option Addr) : State δ :=
  match s.tracing, block with
  | none, _ => s
  | some trace, some block =>
    { s with
      hart := riscvJitTlbPut s.hart trace.virtPc block
      jtlbLeaves := update s.jtlbLeaves (jtlbIndex trace.virtPc) trace.leaves
      tracing := none }
  | some _, none => { s with hart := riscvJitTlbFlush s.hart, tracing := none }

/-- The window after a fetch: whatever the slot of the program counter holds. -/
def fill : State δ :=
  let entry := s.hart.entry s.hart.pc
  let page := entry.e <<< 12
  { s with
    window := some ⟨entry.ptr, if s.hart.rv64 then page else (page.setWidth 32).setWidth 64,
      s.tlbLeaves (tlbIndex (vpn s.hart.pc))⟩ }

end State

/-- What a hart does, as far as its caches can tell. `other` is any change that leaves the TLB and
the JTLB alone: hits in the TLB, registers, control registers, memory written by others. -/
inductive Event (δ : Type)
  | access (vaddr : Addr) (data : List Byte) (attr : MmuAttr) (access : Access)
  | pointer (vaddr : Addr) (size : Nat) (bounce : Bool) (access : Access)
  | other (vm : Hart δ)
  | flush
  | fill
  | lookup (blocks : Addr → Option Addr)
  | finalize (block : Option Addr)
  | discard
  | fenceI
  | sfenceVma (rs1 : BitVec 5)

def step (s : State δ) : Event δ → State δ
  | .access vaddr data attr access =>
    State.settle
      { s with
        hart := (riscvMmuOpPage s.hart vaddr data attr access).2
        tlbLeaves := if opEnters s.hart vaddr attr access
          then s.enter vaddr (leafOf s.hart vaddr (opMask attr access))
          else s.tlbLeaves }
  | .pointer vaddr size bounce access =>
    State.settle
      { s with
        hart := (riscvMmuPtrTranslate s.hart vaddr size bounce access).2
        tlbLeaves := if ptrEnters s.hart vaddr size bounce access
          then s.enter vaddr (leafOf s.hart vaddr access.mask)
          else s.tlbLeaves }
  | .other vm => State.settle { s with hart := { vm with tlb := s.hart.tlb, jtlb := s.hart.jtlb } }
  | .flush => State.settle { s with hart := riscvTlbFlush s.hart }
  | .fill => State.settle s.fill
  | .lookup blocks => s.lookup blocks
  | .finalize block => s.finalize block
  | .discard => { s with tracing := none }
  | .fenceI => { s with hart := riscvJitTlbFlush s.hart }
  | .sfenceVma rs1 => State.settle { s with hart := riscvSfenceVma s.hart rs1 }

/-- A hart that enters its loop, with nothing known of its caches. -/
def State.start (vm : Hart δ) : State δ := ⟨vm, none, none, fun _ => [], fun _ => []⟩

/-- Nothing that was filled from a leaf covering the address can still be used. A trace in progress is not yet a
block, and not looked at. -/
structure Clean (s : State δ) (va : Addr) : Prop where
  tlb : ∀ vaddr access, s.hart.tlbHit vaddr access = true →
    ∀ leaf ∈ s.tlbLeaves (tlbIndex (vpn vaddr)), ¬ leaf.covers va
  jtlb : ∀ pc, jtlbHit s.hart pc = true → ∀ leaf ∈ s.jtlbLeaves (jtlbIndex pc), ¬ leaf.covers va
  window : ∀ w, s.window = some w → ∀ leaf ∈ w.leaves, ¬ leaf.covers va

/-- The address that a register names at the width of the hart. -/
def named (vm : Hart δ) (rs1 : BitVec 5) : Addr :=
  if vm.rv64 then vm.registers rs1 else ((vm.registers rs1).setWidth 32).setWidth 64

/-- The fence is made for `reg`, the register as it is, and meant for `va`. No other page of a superpage over the
address is cached, no page at all from its leaf if the register is not the address, and either the page of the
register is still cached for fetches or no compiled block and no fetch window came from that leaf. -/
structure Flushable (s : State δ) (reg va : Addr) : Prop where
  pages : ∀ vaddr access, s.hart.tlbHit vaddr access = true → vpn vaddr ≠ vpn reg →
    ∀ leaf ∈ s.tlbLeaves (tlbIndex (vpn vaddr)), 12 < leaf.bitOff ∨ vpn reg ≠ vpn va → ¬ leaf.covers va
  code : (s.hart.entry reg).e = vpn reg ∨
    ((∀ pc, jtlbHit s.hart pc = true → ∀ leaf ∈ s.jtlbLeaves (jtlbIndex pc), ¬ leaf.covers va) ∧
      ∀ w, s.window = some w → ∀ leaf ∈ w.leaves, ¬ leaf.covers va)

/-! Leaves and pages. -/

theorem last_high (fmt : PteFormat) (mem : GuestRam) (vaddr : Addr) {levels : Nat} {pos : Walk} {host : HostMem}
    {last : Walk × Addr} (start : 12 + (levels - 1) * fmt.vpnBits ≤ pos.bitOff)
    (ends : fmt.last mem vaddr levels pos host = some last) : 12 ≤ last.1.bitOff := by
  induction levels generalizing pos with
  | zero => cases ends
  | succ levels ih =>
    rw [PteFormat.last] at ends
    split at ends
    · cases ends
    · split at ends
      · refine ih ?_ ends
        dsimp only
        cases levels with
        | zero => cases ends
        | succ levels =>
          rw [Nat.add_sub_cancel] at start ⊢
          rw [Nat.succ_mul] at start
          omega
      · cases ends
        dsimp only
        omega

variable {vaddr : Addr} {mask : BitVec 64}

theorem leafOf_high {vm : Hart δ} {leaf : Leaf}
    (member : leaf ∈ leafOf vm vaddr mask) :
    leaf.covers vaddr ∧ 12 ≤ leaf.bitOff := by
  unfold leafOf at member
  split at member
  · obtain ⟨last, ends, rfl⟩ := mem_map.mp member
    refine ⟨rfl, ?_⟩
    rw [mem_toList, Hart.lastEntry] at ends
    split at ends
    · exact last_high _ _ _ le_rfl ends
    · cases ends
  · cases member

theorem Leaf.covers_page {leaf : Leaf} {v w : Addr} (page : vpn v = vpn w) (high : 12 ≤ leaf.bitOff)
    (covers : leaf.covers v) : leaf.covers w := by
  rw [Leaf.covers, ← shiftRight_of_vpn page high]
  exact covers

/-! What an access does to the caches. -/

/-- The caches after an access: as before, with the page entered, or emptied by a trap. -/
inductive Caches (vm : Hart δ) (vaddr : Addr) : Bool → Hart δ → Prop
  | kept {vm' : Hart δ} (tlb : vm'.tlb = vm.tlb) : Caches vm vaddr false vm'
  | entered {vm' : Hart δ} (ptr : Addr) (kind : Access) (tlb : vm'.tlb = (riscvTlbPut vm vaddr ptr kind).tlb) :
      Caches vm vaddr true vm'
  | emptied {vm' : Hart δ} (other : Hart δ) (tlb : vm'.tlb = (riscvTlbFlush other).tlb) : Caches vm vaddr false vm'

theorem Caches.of_same {vm mid vm' : Hart δ} {enters : Bool} (caches : Caches mid vaddr enters vm')
    (tlb : mid.tlb = vm.tlb) : Caches vm vaddr enters vm' := by
  have entry : mid.entry vaddr = vm.entry vaddr := by rw [Hart.entry, Hart.entry, tlb]
  cases caches with
  | kept same => exact .kept (same.trans tlb)
  | entered ptr kind same =>
    refine .entered ptr kind (same.trans ?_)
    rw [riscvTlbPut, riscvTlbPut, entry, tlb]
  | emptied other same => exact .emptied other same

section
variable (vm : Hart δ) (vaddr : Addr)

theorem riscvTrap_caches (cause : TrapCause) (tval : BitVec 64) :
    Caches vm vaddr false (riscvTrap vm cause tval) := by
  unfold riscvTrap
  split
  · exact .kept rfl
  · split
    · exact .kept rfl
    · dsimp only
      generalize Priv.ofCode (trapTarget vm cause Priv.machine.code) = priv
      have tlb : (riscvTrapPrivHelper (vm.writeTrapInfo priv (BitVec.ofNat 64 cause.code) tval) priv).tlb
        = vm.tlb := by
        cases priv <;> rfl
      generalize riscvTrapPrivHelper (vm.writeTrapInfo priv (BitVec.ofNat 64 cause.code) tval) priv = mid at tlb
      unfold riscvSwitchPriv
      split
      · exact .emptied (riscvUpdateXlen { mid with privMode := priv }) rfl
      · exact .kept tlb

theorem riscvMmuFault_caches (cause : TrapCause) (tval : Addr) (attr : MmuAttr) :
    Caches vm vaddr false (riscvMmuFault vm cause tval attr) := by
  unfold riscvMmuFault
  split
  · exact .kept rfl
  · exact riscvTrap_caches vm vaddr cause tval

theorem riscvMmioScan_caches (paddr : Addr) (data : List Byte) (access : Access)
    (outside : riscvPhysAccess vm.mem paddr = none) :
    Caches vm vaddr (enters vm true paddr) (riscvMmioScan vm vaddr paddr data access).2 := by
  unfold riscvMmioScan enters
  rw [outside]
  cases vm.mmioDevs.find? fun dev => dev.contains paddr with
  | none => exact .kept rfl
  | some dev =>
    rw [any_some]
    dsimp only
    cases dev.mapping with
    | none => exact .kept rfl
    | some mapping =>
      cases dev.holdsPage paddr with
      | false =>
        dsimp only
        split
        · exact .kept rfl
        · exact .kept rfl
      | true =>
        dsimp only
        split
        all_goals exact .entered (mapping + (paddr - dev.addr)) access rfl

end

theorem enters_of_unclaimed {vm vm' : Hart δ} {vaddr paddr : Addr} {data : List Byte} {access : Access}
    (outside : riscvPhysAccess vm.mem paddr = none)
    (scan : riscvMmioScan vm vaddr paddr data access = (none, vm')) :
    enters vm true paddr = false ∧ vm' = vm := by
  unfold riscvMmioScan at scan
  unfold enters
  rw [outside]
  cases found : vm.mmioDevs.find? fun dev => dev.contains paddr with
  | none =>
    rw [found] at scan
    exact ⟨rfl, (Prod.mk.inj scan).2.symm⟩
  | some dev =>
    rw [found] at scan
    dsimp only at scan
    split at scan
    · cases scan
    · split at scan <;> cases scan

theorem translate_keeps {vm mid : Hart δ} {found : Option Addr}
    (out : riscvMmuTranslate vm vaddr mask = (found, mid)) :
    mid.tlb = vm.tlb ∧ ∀ scans paddr, enters vm scans paddr = enters mid scans paddr := by
  have host : mid = { vm with host := mid.host } := by
    have whole := riscvMmuTranslate_host vm vaddr mask
    rwa [out] at whole
  rw [host]
  exact ⟨rfl, fun _ _ => rfl⟩

theorem riscvMmuOpPage_caches (vm : Hart δ) (vaddr : Addr) (data : List Byte) (attr : MmuAttr) (access : Access) :
    Caches vm vaddr (opEnters vm vaddr attr access) (riscvMmuOpPage vm vaddr data attr access).2 := by
  unfold opEnters Hart.translated riscvMmuOpPage
  rw [← opMask]
  cases out : riscvMmuTranslate vm vaddr (opMask attr access) with
  | mk found mid =>
    obtain ⟨tlb, same⟩ := translate_keeps out
    cases found with
    | none => exact (riscvMmuFault_caches mid vaddr access.pagefault vaddr attr).of_same tlb
    | some paddr =>
      rw [any_some, same]
      refine Caches.of_same ?_ tlb
      dsimp only
      cases inRam : riscvPhysAccess mid.mem paddr with
      | some ptr =>
        have yes : enters mid true paddr = true := by rw [enters, inRam]; rfl
        rw [yes]
        unfold riscvRamAccess
        dsimp only
        split
        · exact .entered ptr access rfl
        · exact .entered ptr access rfl
      | none =>
        have scanned := riscvMmioScan_caches mid vaddr paddr data access inRam
        cases scan : riscvMmioScan mid vaddr paddr data access with
        | mk read last =>
          cases read with
          | some bytes =>
            rw [scan] at scanned
            exact scanned
          | none =>
            obtain ⟨no, rfl⟩ := enters_of_unclaimed inRam scan
            rw [no]
            dsimp only
            split
            · exact .kept rfl
            · exact riscvMmuFault_caches _ vaddr access.physFault vaddr attr

theorem riscvMmuPtrTranslate_caches (vm : Hart δ) (vaddr : Addr) (size : Nat) (bounce : Bool) (access : Access) :
    Caches vm vaddr (ptrEnters vm vaddr size bounce access)
      (riscvMmuPtrTranslate vm vaddr size bounce access).2 := by
  unfold ptrEnters Hart.translated riscvMmuPtrTranslate
  cases riscvBlockInPage vaddr size with
  | false => exact riscvMmuFault_caches vm vaddr access.misalign vaddr .plain
  | true =>
    rw [if_pos rfl]
    cases out : riscvMmuTranslate vm vaddr access.mask with
    | mk found mid =>
      obtain ⟨tlb, same⟩ := translate_keeps out
      cases found with
      | none => exact (riscvMmuFault_caches mid vaddr access.pagefault vaddr .plain).of_same tlb
      | some paddr =>
        rw [any_some, same]
        refine Caches.of_same ?_ tlb
        dsimp only
        cases inRam : riscvPhysAccess mid.mem paddr with
        | some ptr =>
          have yes : enters mid bounce paddr = true := by rw [enters, inRam]; rfl
          rw [yes]
          dsimp only
          split
          · exact .entered ptr access rfl
          · exact .entered ptr access rfl
        | none =>
          cases bounce with
          | false =>
            have no : enters mid false paddr = false := by rw [enters, inRam]; rfl
            rw [no, if_neg nofun]
            dsimp only
            split
            · exact .kept rfl
            · exact riscvMmuFault_caches mid vaddr access.physFault vaddr .plain
          | true =>
            have scanned := riscvMmioScan_caches mid vaddr paddr (replicate size 0) .read inRam
            rw [if_pos rfl]
            cases scan : riscvMmioScan mid vaddr paddr (replicate size 0) .read with
            | mk read last =>
              cases read with
              | some bytes =>
                rw [scan] at scanned
                exact scanned
              | none =>
                obtain ⟨no, rfl⟩ := enters_of_unclaimed inRam scan
                rw [no]
                dsimp only
                split
                · exact .kept rfl
                · exact riscvMmuFault_caches _ vaddr access.physFault vaddr .plain

/-! Runs. -/

/-- What the TLB serves was filled from leaves that cover it. -/
def Filled (vm : Hart δ) (leaves : BitVec 8 → List Leaf) : Prop :=
  ∀ vaddr access, vm.tlbHit vaddr access = true →
    ∀ leaf ∈ leaves (tlbIndex (vpn vaddr)), leaf.covers vaddr ∧ 12 ≤ leaf.bitOff

section Filled
variable {vm vm' : Hart δ} {leaves : BitVec 8 → List Leaf}

theorem Filled.keep (filled : Filled vm leaves) (tlb : vm'.tlb = vm.tlb) : Filled vm' leaves := by
  intro vaddr access hit
  rw [Hart.tlbHit, Hart.entry, tlb] at hit
  exact filled vaddr access hit

theorem Filled.of_empty (other : Hart δ) (tlb : vm'.tlb = (riscvTlbFlush other).tlb) : Filled vm' leaves := by
  intro vaddr access hit
  have misses := emptyTlb_misses other vaddr access
  rw [Hart.tlbHit, Hart.entry] at misses hit
  rw [tlb] at hit
  exact absurd (hit.symm.trans misses) Bool.noConfusion

theorem hit_of_serves {vaddr : Addr} (served : serves vm vaddr = true) :
    ∃ access, vm.tlbHit vaddr access = true := by
  rcases Bool.or_eq_true_iff.mp served with data | fetch
  · rcases Bool.or_eq_true_iff.mp data with read | write
    · exact ⟨.read, read⟩
    · exact ⟨.write, write⟩
  · exact ⟨.exec, fetch⟩

end Filled

variable {s : State δ}

theorem Caches.filled {vm' : Hart δ} {enters : Bool}
    (caches : Caches s.hart vaddr enters vm') (filled : Filled s.hart s.tlbLeaves) :
    Filled vm' (if enters then s.enter vaddr (leafOf s.hart vaddr mask) else s.tlbLeaves) := by
  cases caches with
  | kept tlb => exact filled.keep tlb
  | emptied other tlb => exact .of_empty other tlb
  | entered ptr kind tlb =>
    rw [if_pos rfl]
    refine Filled.keep ?_ tlb
    intro w access hit leaf member
    rcases riscvTlbPut_hit hit with ⟨slot, old⟩ | ⟨page, -⟩
    · rw [State.enter, update_of_ne slot] at member
      exact filled w access old leaf member
    · rw [State.enter, page, update_self] at member
      have known : leaf.covers vaddr ∧ 12 ≤ leaf.bitOff := by
        rcases mem_append.mp member with new | old
        · exact leafOf_high new
        · split at old
          next served =>
            obtain ⟨access, hit⟩ := hit_of_serves served
            exact filled vaddr access hit leaf old
          next => cases old
      exact ⟨Leaf.covers_page page.symm known.2 known.1, known.2⟩

/-- The window lives in a running loop, and the TLB serves what it was filled with. -/
structure Tracked (s : State δ) : Prop where
  filled : Filled s.hart s.tlbLeaves
  running : s.window ≠ none → s.hart.running = true

theorem Tracked.settle (filled : Filled s.hart s.tlbLeaves) : Tracked s.settle := by
  unfold State.settle
  by_cases running : s.hart.running = true
  · rw [if_pos running]
    exact ⟨filled, fun _ => running⟩
  · rw [if_neg running]
    exact ⟨filled, fun window => absurd rfl window⟩

theorem Tracked.of_same {s s' : State δ} (tracked : Tracked s) (tlb : s'.hart.tlb = s.hart.tlb)
    (leaves : s'.tlbLeaves = s.tlbLeaves) (running : s'.hart.running = s.hart.running)
    (window : s'.window = s.window) :
    Tracked s' where
  filled := leaves ▸ tracked.filled.keep tlb
  running := by
    rw [window, running]
    exact tracked.running

theorem riscvVirtTranslateE_keeps (s : State δ) (vaddr : Addr) :
    (riscvVirtTranslateE s vaddr).2 = { s.hart with host := (riscvVirtTranslateE s vaddr).2.host } := by
  have host := riscvMmuTranslate_host s.hart vaddr Access.exec.mask
  unfold riscvVirtTranslateE
  dsimp only
  split
  · rfl
  · split
    next vm out =>
      rw [out] at host
      exact host
    next paddr vm out =>
      rw [out] at host
      exact host

theorem lookup_tracked (tracked : Tracked s) (blocks : Addr → Option Addr) :
    Tracked (s.lookup blocks) := by
  have keeps := riscvVirtTranslateE_keeps s s.hart.pc
  unfold State.lookup
  dsimp only
  cases out : riscvVirtTranslateE s s.hart.pc with
  | mk found vm =>
    rw [out] at keeps
    dsimp only at keeps
    have tlb : vm.tlb = s.hart.tlb := by rw [keeps]
    have running : vm.running = s.hart.running := by rw [keeps]
    cases found with
    | none => exact tracked.of_same tlb rfl running rfl
    | some translation =>
      dsimp only
      cases blocks translation.1 with
      | some block => exact tracked.of_same tlb rfl running rfl
      | none => exact tracked.of_same tlb rfl running rfl

/-! The fence. -/

/-- The entry without the tags for a page. -/
def dropPage (old : TlbEntry) (page : Addr) : TlbEntry :=
  { old with
    r := if old.r = page then page - 1 else old.r
    w := if old.w = page then page - 1 else old.w
    e := if old.e = page then page - 1 else old.e }

def dropTags (vm : Hart δ) (va : Addr) : Hart δ :=
  { vm with tlb := update vm.tlb (tlbIndex (vpn va)) (dropPage (vm.entry va) (vpn va)) }

theorem riscvTlbFlushPage_eq (vm : Hart δ) (va : Addr) :
    riscvTlbFlushPage vm va =
      if (vm.entry va).e = vpn va then riscvRestartDispatch (riscvJitTlbFlush (dropTags vm va))
        else dropTags vm va := rfl

theorem riscvTlbFlushPage_tlb (vm : Hart δ) (va : Addr) :
    (riscvTlbFlushPage vm va).tlb = (dropTags vm va).tlb := by
  rw [riscvTlbFlushPage_eq, apply_ite Hart.tlb]
  exact ite_self _

theorem riscvTlbFlushPage_hit (vm : Hart δ) (va vaddr : Addr) (access : Access) :
    (riscvTlbFlushPage vm va).tlbHit vaddr access = true ↔ vm.tlbHit vaddr access = true ∧ vpn vaddr ≠ vpn va := by
  rw [Hart.tlbHit, Hart.tlbHit, Hart.entry, riscvTlbFlushPage_tlb, dropTags, beq_iff_eq, beq_iff_eq]
  dsimp only
  by_cases slot : tlbIndex (vpn vaddr) = tlbIndex (vpn va)
  · rw [slot, update_self]
    have same : vm.entry vaddr = vm.entry va := by rw [Hart.entry, Hart.entry, slot]
    rw [same]
    have tag (old : Addr) : (if old = vpn va then vpn va - 1 else old) = vpn vaddr ↔ old = vpn vaddr ∧
      vpn vaddr ≠ vpn va := by
      by_cases mine : old = vpn va
      · rw [if_pos mine]
        constructor
        · intro pred
          exact absurd (pred ▸ slot) (tlbIndex_pred (vpn va))
        · rintro ⟨hit, apart⟩
          exact absurd (hit.symm.trans mine) apart
      · rw [if_neg mine]
        exact ⟨fun hit => ⟨hit, fun page => mine (hit.trans page)⟩, fun both => both.1⟩
    cases access with
    | read | write | exec => exact tag _
  · rw [update_of_ne slot, ← Hart.entry]
    exact ⟨fun hit => ⟨hit, fun page => slot (congrArg tlbIndex page)⟩, fun both => both.1⟩

theorem riscvSfenceVma_filled {vm : Hart δ} {leaves : BitVec 8 → List Leaf} (filled : Filled vm leaves)
    (rs1 : BitVec 5) :
    Filled (riscvSfenceVma vm rs1) leaves := by
  unfold riscvSfenceVma
  split
  · intro vaddr access hit
    exact filled vaddr access ((riscvTlbFlushPage_hit vm _ vaddr access).mp hit).1
  · exact .of_empty vm rfl

theorem step_tracked (tracked : Tracked s) (event : Event δ) : Tracked (step s event) := by
  cases event with
  | access vaddr data attr access =>
    exact .settle ((riscvMmuOpPage_caches s.hart vaddr data attr access).filled tracked.filled)
  | pointer vaddr size bounce access =>
    exact .settle ((riscvMmuPtrTranslate_caches s.hart vaddr size bounce access).filled tracked.filled)
  | other vm => exact .settle (tracked.filled.keep rfl)
  | flush => exact .settle (.of_empty s.hart rfl)
  | fill => exact .settle tracked.filled
  | lookup blocks => exact lookup_tracked tracked blocks
  | finalize block =>
    change Tracked (s.finalize block)
    unfold State.finalize
    split
    · exact tracked
    · exact tracked.of_same rfl rfl rfl rfl
    · exact tracked.of_same rfl rfl rfl rfl
  | discard | fenceI => exact tracked.of_same rfl rfl rfl rfl
  | sfenceVma rs1 => exact .settle (riscvSfenceVma_filled tracked.filled rs1)

theorem run_tracked (vm : Hart δ) (events : List (Event δ)) :
    ∀ s ∈ visited step (State.start vm) events, Tracked s := by
  have start : Tracked (State.start vm) :=
    ⟨nofun, fun none => absurd rfl none⟩
  have keeps (s : State δ) (event : Event δ) (tracked : Tracked s) (_ : True) : Tracked (step s event) :=
    step_tracked tracked event
  exact invariant keeps start (.always (fun _ _ => trivial) _ _)

theorem step_sfenceVma (tracked : Tracked s) {rs1 : BitVec 5} (one : rs1 ≠ 0) :
    step s (.sfenceVma rs1) =
      { s with
        hart := riscvTlbFlushPage s.hart (s.hart.registers rs1)
        window := if (s.hart.entry (s.hart.registers rs1)).e = vpn (s.hart.registers rs1) then none
          else s.window } := by
  have fence : riscvSfenceVma s.hart rs1 = riscvTlbFlushPage s.hart (s.hart.registers rs1) := by
    rw [riscvSfenceVma, if_pos one]
  rw [step, fence, riscvTlbFlushPage_eq, State.settle]
  by_cases fetched : (s.hart.entry (s.hart.registers rs1)).e = vpn (s.hart.registers rs1)
  · rw [if_pos fetched, if_pos fetched]
    rfl
  · rw [if_neg fetched, if_neg fetched]
    split
    · rfl
    next stopped =>
      have none : s.window = none := by
        by_contra window
        exact stopped (tracked.running window)
      rw [none]

/-! The operations of the interpreter as runs. -/

theorem settle_hart (s : State δ) : s.settle.hart = s.hart := by
  unfold State.settle
  split <;> rfl

section
variable (s : State δ) (vaddr : Addr)

theorem op_run (data : List Byte) (attr : MmuAttr) (access : Access) :
    ∃ events, (final step s events).hart = (riscvMmuOp s.hart vaddr data attr access).2 := by
  unfold riscvMmuOp
  split
  · exact ⟨[.access vaddr data attr access], settle_hart _⟩
  · dsimp only
    generalize 0x1000 - (vaddr &&& 0xFFF#64).toNat = part
    have first : (step s (.access vaddr (data.take part) attr access)).hart =
        (riscvMmuOpPage s.hart vaddr (data.take part) attr access).2 := settle_hart _
    cases out : riscvMmuOpPage s.hart vaddr (data.take part) attr access with
    | mk read vm =>
      rw [out] at first
      cases read with
      | none => exact ⟨[.access vaddr (data.take part) attr access], first⟩
      | some bytes =>
        refine ⟨[.access vaddr (data.take part) attr access,
          .access (vaddr + BitVec.ofNat 64 part) (data.drop part) attr access], (settle_hart _).trans ?_⟩
        rw [first]
        dsimp only
        split <;> rename_i rest <;> rw [rest]

theorem load_run (size : Nat) :
    ∃ events, (final step s events).hart = (riscvLoadBytes s.hart vaddr size).2 := by
  unfold riscvLoadBytes
  split
  · exact ⟨[], rfl⟩
  · exact op_run s vaddr _ .plain .read

theorem store_run (data : List Byte) :
    ∃ events, (final step s events).hart = riscvStoreBytes s.hart vaddr data := by
  unfold riscvStoreBytes
  split
  · exact ⟨[.other { s.hart with host := s.hart.host.store ((s.hart.entry vaddr).ptr + vaddr) data }],
      settle_hart _⟩
  · exact op_run s vaddr data .plain .write

theorem fetch_run :
    ∃ events, (final step s events).hart = (riscvFetchInsn s.hart vaddr).2 := by
  have slow : ∃ events, (final step s events).hart = (riscvFetchSlow s.hart vaddr).2 := by
    obtain ⟨first, low⟩ := op_run s vaddr [0, 0] .plain .exec
    unfold riscvFetchSlow riscvFetchHalf
    cases out : riscvMmuOp s.hart vaddr [0, 0] .plain .exec with
    | mk read vm =>
      rw [out] at low
      cases read with
      | none => exact ⟨first, low⟩
      | some bytes =>
        dsimp only
        split
        · obtain ⟨second, high⟩ := op_run (final step s first) (vaddr + 2) [0, 0] .plain .exec
          rw [low, ← final_append] at high
          refine ⟨first ++ second, high.trans ?_⟩
          split <;> rename_i rest <;> rw [rest]
        · exact ⟨first, low⟩
  unfold riscvFetchInsn
  dsimp only
  split
  · split
    · split
      · exact ⟨[], rfl⟩
      · exact slow
    · exact ⟨[], rfl⟩
  · exact slow

end

theorem sfence_any_rs2 (how : Fetched) (vm : Hart δ) (insn : BitVec 32)
    (encoded : insn &&& 0xFE007FFF#32 = 0x12000073#32) (allowed : riscvMstatusAllowed vm 20 = true) :
    riscvEmulateSystemOther how vm insn = riscvSfenceVma vm (regField insn 15) := by
  have kind : (bitExtU32 insn 12 3).toNat = 0 := by
    have field : insn.extractLsb' 12 3 = (insn &&& 0xFE007FFF#32).extractLsb' 12 3 := by
      rw [extractLsb'_and]
      exact and_allOnes.symm
    rw [bitExtU32, bitExtU_eq insn (by decide), field, encoded]
    rfl
  unfold riscvEmulateSystemOther
  rw [kind]
  exact if_pos ⟨encoded, allowed⟩

/-- A trace that was begun before the fence enters the JTLB behind it. -/
theorem trace_outlives_fence (tracked : Tracked s) {rs1 : BitVec 5} (one : rs1 ≠ 0) {trace : Trace}
    (begun : s.tracing = some trace) (block : Addr) :
    (step (step s (.sfenceVma rs1)) (.finalize (some block))).jtlbLeaves (jtlbIndex trace.virtPc) = trace.leaves := by
  rw [step_sfenceVma tracked one]
  dsimp only [step, State.finalize]
  rw [begun]
  exact update_self ..

def fenceRam : GuestRam where
  __ := tableRam
  size := 0x4000
  fits := by decide
  mapped := by decide
  sizeAligned := rfl

def tables (entries : List (Addr × BitVec 32)) : HostMem := fun p =>
  match entries.find? fun entry => p - entry.1 < 4 with
  | some entry => leByte (entry.2.setWidth 64) (p - entry.1)
  | none => 0

def fenceHart : Hart Unit :=
  { riscvHartInit fenceRam (tables
      [(0x10400, 0x20000C01), (0x10404, 0x20000043), (0x10800, 0x20000C01), (0x13004, 0x2000044B),
        (0x13404, 0x2000084B)]) [] () false false with
    running := true
    pc := 0x40001000
    rootPageTable := 0x80000000
    mmuMode := .sv32
    privMode := .supervisor }

/-- The hart after an RV32 write of the address to `x1`. -/
def fenceState (va : BitVec 32) : State Unit := .start (riscvWriteReg .rv32 fenceHart 1 va)

/-- Code at `0x40001000` is fetched and its block is found; then a page with the same TLB index is read. -/
def evictedRun : List (Event Unit) :=
  [.access 0x40001000 [0, 0] .plain .exec, .fill, .lookup fun _ => some 0x5000,
    .access 0x40101000 [0] .plain .read]

/-- Two pages of the megapage are read. -/
def megapageRun : List (Event Unit) :=
  [.access 0x40401000 [0] .plain .read, .access 0x40402000 [0] .plain .read]

def evicted : State Unit := final step (fenceState 0x40001000) (evictedRun ++ [.sfenceVma 1])

def megapaged : State Unit := final step (fenceState 0x40401000) (megapageRun ++ [.sfenceVma 1])

def upper : State Unit := final step (fenceState 0x80001000) [.access 0x80001000 [0] .plain .read, .sfenceVma 1]

end Rvvm.Fence
