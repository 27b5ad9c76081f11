import Rvvm.Machine.Ram
import Rvvm.Cpu.BitOps

/-! The hart: registers, control registers, translation caches, and how it takes traps. -/
namespace Rvvm
open Function (update)

inductive Priv
  | user | supervisor | hypervisor | machine
  deriving DecidableEq, Repr

namespace Priv

def code : Priv → Nat
  | user => 0
  | supervisor => 1
  | hypervisor => 2
  | machine => 3

def ofCode : Nat → Priv
  | 0 => user
  | 1 => supervisor
  | 2 => hypervisor
  | _ => machine

def bits (p : Priv) : BitVec 64 := BitVec.ofNat 64 p.code

@[simp] theorem ofCode_code (p : Priv) : ofCode p.code = p := by cases p <;> rfl

end Priv

/-- The synchronous exceptions, numbered as in `xcause`. -/
inductive TrapCause
  | insnMisalign | insnFetch | illInsn | breakpoint | loadMisalign | loadFault
  | storeMisalign | storeFault | ecallUmode | ecallSmode | ecallHmode | ecallMmode
  | insnPagefault | loadPagefault | storePagefault
  deriving DecidableEq, Repr

def TrapCause.code : TrapCause → Nat
  | insnMisalign => 0x0
  | insnFetch => 0x1
  | illInsn => 0x2
  | breakpoint => 0x3
  | loadMisalign => 0x4
  | loadFault => 0x5
  | storeMisalign => 0x6
  | storeFault => 0x7
  | ecallUmode => 0x8
  | ecallSmode => 0x9
  | ecallHmode => 0xA
  | ecallMmode => 0xB
  | insnPagefault => 0xC
  | loadPagefault => 0xD
  | storePagefault => 0xF

inductive Access
  | read | write | exec
  deriving DecidableEq, Repr

inductive SatpMode
  | bare | sv32 | sv39 | sv48 | sv57
  deriving DecidableEq, Repr

namespace SatpMode

def code : SatpMode → Nat
  | bare => 0x0
  | sv32 => 0x1
  | sv39 => 0x8
  | sv48 => 0x9
  | sv57 => 0xA

def ofCode : Nat → Option SatpMode
  | 0x0 => some bare
  | 0x1 => some sv32
  | 0x8 => some sv39
  | 0x9 => some sv48
  | 0xA => some sv57
  | _ => none

end SatpMode

/-- `rvvm_tlb_entry_t`: `ptr` is the host pointer with the virtual address subtracted, the
others hold the virtual page number the entry serves for each access. -/
structure TlbEntry where
  ptr : Addr
  r : Addr
  w : Addr
  e : Addr
  deriving DecidableEq, Repr

structure JitTlbEntry where
  block : Addr
  pc : Addr
  deriving DecidableEq, Repr

/-- Guest RAM whose base and size are multiples of the page size, as `riscv_init_ram` demands. -/
structure GuestRam extends RvvmRam where
  addrAligned : addr &&& 0xFFF#64 = 0
  sizeAligned : size &&& 0xFFF#64 = 0

def GuestRam.empty : GuestRam where
  addr := 0
  size := 0
  data := 0
  fits := by decide
  mapped := by decide
  addrAligned := rfl
  sizeAligned := rfl

/-- An MMIO callback on the joint device state `δ`: buffer, offset and operation size in,
success, buffer and state out. -/
abbrev MmioHandler (δ : Type) := δ → List Byte → Addr → Nat → Bool × List Byte × δ

structure MmioDev (δ : Type) where
  addr : Addr
  size : Addr
  minOpSize : Nat
  maxOpSize : Nat
  mapping : Option Addr
  read : Option (MmioHandler δ)
  write : Option (MmioHandler δ)

structure Csr where
  status : BitVec 64
  ie : BitVec 64
  ip : BitVec 64
  isa : BitVec 64
  edeleg : Priv → BitVec 64
  ideleg : Priv → BitVec 64
  tvec : Priv → BitVec 64
  scratch : Priv → BitVec 64
  epc : Priv → BitVec 64
  cause : Priv → BitVec 64
  tval : Priv → BitVec 64
  iselect : Priv → BitVec 64
  counteren : Priv → BitVec 64
  envcfg : Priv → BitVec 64
  mseccfg : BitVec 64
  fcsr : BitVec 32
  hartid : BitVec 32

/-- `rvvm_aia_regfile_t`, for `RVVM_AIA_IRQ_LIMIT` = 256 identities. -/
structure AiaRegfile where
  eidelivery : BitVec 32
  eithreshold : BitVec 32
  eip : Fin 8 → BitVec 32
  eie : Fin 8 → BitVec 32

/-- `rvvm_hart_t` with the machine it runs in: RAM and its host bytes, the page tracking of
every hart, the MMIO devices, whether a debugger takes software breakpoints, and the machine's
options. `aia` holds the interrupt files of M-mode and, at `true`, of S-mode. What instructions
read from the host is kept here too: the timer, the entropy source, the accrued floating-point
exceptions and the rounding mode. -/
structure Hart (δ : Type) where
  running : Bool
  registers : BitVec 5 → BitVec 64
  pc : BitVec 64
  fpuRegisters : BitVec 5 → BitVec 64
  tlb : BitVec 8 → TlbEntry
  jtlb : BitVec 8 → JitTlbEntry
  mem : GuestRam
  host : HostMem
  pages : List (Option RvjitPages)
  mmioDevs : List (MmioDev δ)
  devices : δ
  gdbHalts : Bool
  machineRv64 : Bool
  sv57Allowed : Bool
  rootPageTable : Addr
  mmuMode : SatpMode
  privMode : Priv
  rv64 : Bool
  trap : Bool
  trapPc : Addr
  userland : Bool
  lrsc : Bool
  lrscAddr : BitVec 64
  lrscCas : BitVec 64
  aia : Option (Bool → AiaRegfile)
  stimecmp : BitVec 64
  pendingIrqs : BitVec 32
  csr : Csr
  jitEnabled : Bool
  jitHarvard : Bool
  mimpid : BitVec 32
  timer : BitVec 64
  entropy : BitVec 16
  fpuExceptions : BitVec 32
  fpuRounding : BitVec 32

variable {δ : Type}

namespace Hart

def machine (vm : Hart δ) : RvvmMachine := ⟨vm.mem.toRvvmRam, vm.host, vm.pages⟩

def writeReg (vm : Hart δ) (reg : BitVec 5) (data : BitVec 64) : Hart δ :=
  { vm with registers := update vm.registers reg data }

def setStatus (vm : Hart δ) (status : BitVec 64) : Hart δ :=
  { vm with csr := { vm.csr with status := status } }

end Hart

/-! Status fields. -/

namespace Csr

def mprv (csr : Csr) : Bool := csr.status.getLsbD 17

def sum (csr : Csr) : Bool := csr.status.getLsbD 18

def mxr (csr : Csr) : Bool := csr.status.getLsbD 19

def mpp (csr : Csr) : Priv := .ofCode (bitCut csr.status 11 2).toNat

def fs (csr : Csr) : Nat := (bitCut csr.status 13 2).toNat

end Csr

def riscvFpuIsEnabled (vm : Hart δ) : Bool := vm.csr.fs != 0

def riscvFpuSetDirty (vm : Hart δ) : Hart δ :=
  if vm.csr.fs ≠ 3 then vm.setStatus (vm.csr.status ||| (3#64 <<< 13)) else vm

def riscvInterruptsPending (vm : Hart δ) : BitVec 64 :=
  (vm.pendingIrqs.setWidth 64 ||| vm.csr.ip) &&& vm.csr.ie

def vpn (vaddr : Addr) : Addr := vaddr >>> 12

/-- The TLB slot of a virtual page number, `vpn & RVVM_TLB_MASK`. -/
def tlbIndex (vpn : Addr) : BitVec 8 := vpn.setWidth 8

def Hart.entry (vm : Hart δ) (vaddr : Addr) : TlbEntry := vm.tlb (tlbIndex (vpn vaddr))

def TlbEntry.tag (e : TlbEntry) : Access → Addr
  | .read => e.r
  | .write => e.w
  | .exec => e.e

def riscvRestartDispatch (vm : Hart δ) : Hart δ := { vm with running := false }

def riscvJitTlbFlush (vm : Hart δ) : Hart δ :=
  { vm with jtlb := update (fun _ => ⟨0, 0⟩) 0 ⟨0, -1⟩ }

/-- Slot 0 would serve page 0 with zeroed tags, so it gets tags no page has. -/
def riscvTlbFlush (vm : Hart δ) : Hart δ :=
  riscvRestartDispatch (riscvJitTlbFlush
    { vm with tlb := update (fun _ => ⟨0, 0, 0, 0⟩) 0 ⟨0, -1, -1, -1⟩ })

def riscvTlbFlushPage (vm : Hart δ) (addr : Addr) : Hart δ :=
  let v := vpn addr
  let old := vm.tlb (tlbIndex v)
  let entry : TlbEntry :=
    { old with
      r := if old.r = v then v - 1 else old.r
      w := if old.w = v then v - 1 else old.w
      e := if old.e = v then v - 1 else old.e }
  let vm := { vm with tlb := update vm.tlb (tlbIndex v) entry }
  if old.e = v then riscvRestartDispatch (riscvJitTlbFlush vm) else vm

/-- The entry `riscv_tlb_put` leaves in the slot: tags of other pages are invalidated, tags of
the same page survive (except `w` on a fetch), and `ptr` is replaced. -/
def TlbEntry.put (old : TlbEntry) (vaddr ptr : Addr) : Access → TlbEntry
  | .read =>
    ⟨ptr - vaddr, vpn vaddr, if old.w ≠ vpn vaddr then vpn vaddr - 1 else old.w,
      if old.e ≠ vpn vaddr then vpn vaddr - 1 else old.e⟩
  | .write =>
    ⟨ptr - vaddr, vpn vaddr, vpn vaddr, if old.e ≠ vpn vaddr then vpn vaddr - 1 else old.e⟩
  | .exec =>
    ⟨ptr - vaddr, if old.r ≠ vpn vaddr then vpn vaddr - 1 else old.r, vpn vaddr - 1, vpn vaddr⟩

def riscvTlbPut (vm : Hart δ) (vaddr ptr : Addr) (access : Access) : Hart δ :=
  { vm with
    tlb := update vm.tlb (tlbIndex (vpn vaddr)) ((vm.entry vaddr).put vaddr ptr access) }

def riscvUpdateXlen (vm : Hart δ) : Hart δ :=
  let rv64 := match vm.privMode with
    | .machine => vm.csr.isa.getLsbD 63
    | .hypervisor | .supervisor => bitCheck vm.csr.status 35
    | .user => bitCheck vm.csr.status 33
  if vm.rv64 ≠ rv64 then riscvRestartDispatch { vm with rv64 := rv64 } else vm

def riscvSwitchPriv (vm : Hart δ) (priv : Priv) : Hart δ :=
  if vm.privMode ≠ priv then riscvTlbFlush (riscvUpdateXlen { vm with privMode := priv }) else vm

/-- `xPP` gets the current privilege, `xPIE` gets `xIE`, `xIE` is cleared. -/
def riscvTrapPrivHelper (vm : Hart δ) (target : Priv) : Hart δ :=
  let status := vm.csr.status
  match target with
  | .machine =>
    let status := bitReplace status 11 2 vm.privMode.bits
    let status := bitReplace status 7 1 (bitCut status 3 1)
    vm.setStatus (bitReplace status 3 1 0)
  | .hypervisor | .supervisor =>
    let status := bitReplace status 8 1 vm.privMode.bits
    let status := bitReplace status 5 1 (bitCut status 1 1)
    vm.setStatus (bitReplace status 1 1 0)
  | .user =>
    let status := bitReplace status 4 1 (bitCut status 0 1)
    vm.setStatus (bitReplace status 0 1 0)

def riscvRestartAtPc (vm : Hart δ) (pc : BitVec 64) : Hart δ :=
  riscvRestartDispatch { vm with trapPc := pc, trap := true }

/-- The delegation loop of `riscv_trap`, from privilege number `priv` down. -/
def trapTarget (vm : Hart δ) (cause : TrapCause) : Nat → Nat
  | 0 => 0
  | priv + 1 =>
    if vm.privMode.code < priv + 1 ∧ (vm.csr.edeleg (.ofCode (priv + 1))).getLsbD cause.code then
      trapTarget vm cause priv
    else priv + 1

def Hart.writeTrapInfo (vm : Hart δ) (priv : Priv) (cause tval : BitVec 64) : Hart δ :=
  { vm with
    csr := { vm.csr with
      epc := update vm.csr.epc priv vm.pc
      cause := update vm.csr.cause priv cause
      tval := update vm.csr.tval priv tval } }

def riscvTrap (vm : Hart δ) (cause : TrapCause) (tval : BitVec 64) : Hart δ :=
  if vm.trap then vm
  else if vm.userland then
    riscvRestartAtPc
      { vm with
        csr := { vm.csr with
          cause := update vm.csr.cause .user (BitVec.ofNat 64 cause.code)
          tval := update vm.csr.tval .user tval } } vm.pc
  else
    let priv := Priv.ofCode (trapTarget vm cause Priv.machine.code)
    let vm := vm.writeTrapInfo priv (BitVec.ofNat 64 cause.code) tval
    let vm := riscvSwitchPriv (riscvTrapPrivHelper vm priv) priv
    riscvRestartAtPc vm (vm.csr.tvec priv &&& ~~~ 3#64)

def riscvIllegalInsn (vm : Hart δ) (insn : BitVec 32) : Hart δ :=
  riscvTrap vm .illInsn (insn.setWidth 64)

/-- A breakpoint the debugger takes restarts the instruction instead of trapping. -/
def riscvBreakpoint (vm : Hart δ) : Hart δ :=
  if vm.gdbHalts then riscvRestartAtPc vm vm.pc else riscvTrap vm .breakpoint 0

def riscvHartCheckInterrupts (vm : Hart δ) : Hart δ :=
  if riscvInterruptsPending vm ≠ 0 then riscvRestartDispatch vm else vm

def irqMask (irq : Nat) : BitVec 32 := 1#32 <<< irq

/-- Waking the hart only matters if the bit was not set before. -/
def riscvInterrupt (vm : Hart δ) (irq : Nat) : Hart δ :=
  let raised := { vm with pendingIrqs := vm.pendingIrqs ||| irqMask irq }
  if vm.pendingIrqs &&& irqMask irq = 0 then riscvRestartDispatch raised else raised

def riscvInterruptClear (vm : Hart δ) (irq : Nat) : Hart δ :=
  { vm with pendingIrqs := vm.pendingIrqs &&& ~~~ irqMask irq }

def riscvCauseIrqMask (vm : Hart δ) : BitVec 64 :=
  if vm.rv64 then 0x8000000000000000 else 0x80000000

/-- The delegation loop of `riscv_handle_irqs`, from privilege number `priv` down: where the
interrupts end up, and those that do. -/
def irqTarget (csr : Csr) : Nat → BitVec 64 → Nat × BitVec 64
  | 0, _ => (0, 0)
  | priv + 1, pending =>
    let irqs := pending &&& ~~~ csr.ideleg (.ofCode (priv + 1))
    if irqs ≠ 0 then (priv + 1, irqs)
    else irqTarget csr priv (pending &&& csr.ideleg (.ofCode (priv + 1)))

def topBit (bits : BitVec 32) : Nat := (bitClz bits).toNat ^^^ 31

def riscvHandleIrqs (vm : Hart δ) : Hart δ :=
  let pending := (riscvInterruptsPending vm).setWidth 32
  if pending = 0 then vm
  else
    let (code, irqs) := irqTarget vm.csr Priv.machine.code (pending.setWidth 64)
    let priv := Priv.ofCode code
    if priv.code < vm.privMode.code then vm
    else if vm.privMode = priv ∧ vm.csr.status.getLsbD vm.privMode.code = false then vm
    else
      let irq := BitVec.ofNat 64 (topBit (irqs.setWidth 32))
      let vm := riscvSwitchPriv (riscvTrapPrivHelper vm priv) priv
      let vm := vm.writeTrapInfo priv (irq ||| riscvCauseIrqMask vm) 0
      let base := vm.csr.tvec priv &&& ~~~ 3#64
      { vm with pc := if vm.csr.tvec priv &&& 1#64 ≠ 0 then base + (irq <<< 2) else base }

end Rvvm
