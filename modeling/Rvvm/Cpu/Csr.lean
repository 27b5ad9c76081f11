import Rvvm.Cpu.Aia

/-! Control and status registers. Each handler takes the operand in `dest` and yields whether
the access succeeded, what it leaves in `dest`, and the hart. -/
namespace Rvvm
open BitVec
open Function (update)

variable {δ : Type}

inductive CsrOp
  | swap | setbits | clearbits
  deriving DecidableEq, Repr

def CsrOp.apply : CsrOp → BitVec 64 → BitVec 64 → BitVec 64
  | swap, _, dest => dest
  | setbits, csr, dest => csr ||| dest
  | clearbits, csr, dest => csr &&& ~~~ dest

structure CsrResult (δ : Type) where
  ret : Bool
  dest : BitVec 64
  vm : Hart δ

/-! Read-modify-write helpers: the register after the operation, and the value handed back. -/

def riscvCsrHelperMasked (rv64 : Bool) (csr dest mask : BitVec 64) (op : CsrOp) :
    BitVec 64 × BitVec 64 :=
  let mask := if rv64 then mask else mask &&& 0xFFFFFFFF#64
  let new := match op with
    | .swap => (csr &&& ~~~ mask) ||| (dest &&& mask)
    | .setbits => csr ||| (dest &&& mask)
    | .clearbits => csr &&& ~~~ (dest &&& mask)
  (new, csr &&& mask)

def riscvCsrHelper (rv64 : Bool) (csr dest : BitVec 64) (op : CsrOp) : BitVec 64 × BitVec 64 :=
  if rv64 then (op.apply csr dest, csr)
  else riscvCsrHelperMasked rv64 csr dest (allOnes 64) op

/-- Trap vector mode 2 and 3 are mapped to a legal one. -/
def riscvCsrTvec (rv64 : Bool) (csr dest : BitVec 64) (op : CsrOp) : BitVec 64 × BitVec 64 :=
  let (new, old) := riscvCsrHelper rv64 csr dest op
  (bitReplace new 0 2 (bitCut new 0 2 &&& 0x1#64), old)

def riscvCsrEpc (rv64 : Bool) (csr dest : BitVec 64) (op : CsrOp) : BitVec 64 × BitVec 64 :=
  let (new, old) := riscvCsrHelper rv64 csr dest op
  (new &&& ~~~ 1#64, old)

def riscvCsrHelperL (rv64 : Bool) (csr dest mask : BitVec 64) (op : CsrOp) : BitVec 64 × BitVec 64 :=
  let (new, old) := riscvCsrHelperMasked rv64 csr dest mask op
  (if rv64 then new else bitReplace csr 0 32 new, old)

/-- The upper half of a 64-bit register; it exists on RV32 only. -/
def riscvCsrHelperH (csr dest mask : BitVec 64) (op : CsrOp) : BitVec 64 × BitVec 64 :=
  let (new, old) := riscvCsrHelperMasked false (csr >>> 32) dest (mask >>> 32) op
  (bitReplace csr 32 32 new, old)

def csrFflagsMask : BitVec 64 := 0x1F
def csrFrmMask : BitVec 64 := 0x7
def csrFcsrMask : BitVec 64 := 0xFF
def csrMstatusMask : BitVec 64 := 0xF007FFFAA
def csrSstatusMask : BitVec 64 := 0x3000DE722
def csrMedelegMask : BitVec 64 := 0xB109
def csrMidelegMask : BitVec 64 := 0x222
def csrMeipMask : BitVec 64 := 0xAAA
def csrSeipMask : BitVec 64 := 0x222
def csrCounterenMask : BitVec 64 := 0x7
def csrMenvcfgMask : BitVec 64 := 0x80000000000000D0
def csrSenvcfgMask : BitVec 64 := 0xD0
def csrMseccfgMask : BitVec 64 := 0x300

def riscvCsrEnvcfgEnabled (vm : Hart δ) (mask : BitVec 64) : Bool :=
  let mask := if vm.privMode.code < Priv.machine.code then mask &&& vm.csr.envcfg .machine else mask
  let mask := if vm.privMode.code < Priv.supervisor.code then mask &&& vm.csr.envcfg .supervisor
    else mask
  mask != 0

def riscvCsrCounterEnabled (vm : Hart δ) (counter : Nat) : Bool :=
  let mask := 1#64 <<< counter
  let mask := if vm.privMode.code < Priv.machine.code then mask &&& vm.csr.counteren .machine else mask
  let mask := if vm.privMode.code < Priv.supervisor.code then mask &&& vm.csr.counteren .supervisor
    else mask
  mask.setWidth 32 != 0

def riscvCsrSeedEnabled (vm : Hart δ) : Bool :=
  if vm.privMode = .user then vm.csr.mseccfg &&& (1#64 <<< 8) != 0 else true

def riscvCsrCbiEnabled (vm : Hart δ) : Bool := riscvCsrEnvcfgEnabled vm (1#64 <<< 4)
def riscvCsrCbcfEnabled (vm : Hart δ) : Bool := riscvCsrEnvcfgEnabled vm (1#64 <<< 6)
def riscvCsrCbzEnabled (vm : Hart δ) : Bool := riscvCsrEnvcfgEnabled vm (1#64 <<< 7)
def riscvCsrSstcEnabled (vm : Hart δ) : Bool := riscvCsrEnvcfgEnabled vm (1#64 <<< 63)

def Hart.setCsr (vm : Hart δ) (csr : Csr) : Hart δ := { vm with csr := csr }

def riscvCsrConst (vm : Hart δ) (val : BitVec 64) : CsrResult δ := ⟨true, val, vm⟩

def riscvCsrZero (vm : Hart δ) : CsrResult δ := riscvCsrConst vm 0

def riscvCsrZeroH (vm : Hart δ) (dest : BitVec 64) : CsrResult δ :=
  if vm.rv64 then ⟨false, dest, vm⟩ else riscvCsrConst vm 0

def riscvCsrCounter (vm : Hart δ) (dest : BitVec 64) (counter : Nat) : CsrResult δ :=
  if riscvCsrCounterEnabled vm counter then riscvCsrConst vm vm.timer else ⟨false, dest, vm⟩

def riscvCsrCounterH (vm : Hart δ) (dest : BitVec 64) (counter : Nat) : CsrResult δ :=
  if !vm.rv64 && riscvCsrCounterEnabled vm counter then riscvCsrConst vm (vm.timer >>> 32)
  else ⟨false, dest, vm⟩

/-- Sixteen bits of entropy, marked as such. -/
def riscvCsrSeed (vm : Hart δ) (dest : BitVec 64) (op : CsrOp) : CsrResult δ :=
  if op ≠ .swap then ⟨false, dest, vm⟩
  else if riscvCsrSeedEnabled vm then riscvCsrConst vm ((2#64 <<< 30) ||| vm.entropy.setWidth 64)
  else ⟨false, dest, vm⟩

def csrMisaRv32 : BitVec 64 := 0x40000000
def csrMisaRv64 : BitVec 64 := 0x8000000000000000

def riscvCsrMisa (vm : Hart δ) (dest : BitVec 64) (op : CsrOp) : CsrResult δ :=
  let (misa, dest) := riscvCsrHelper vm.rv64 (vm.csr.isa ||| 0x14112F#64) dest op
  let setIsa (isa : BitVec 64) : Hart δ := riscvUpdateXlen (vm.setCsr { vm.csr with isa := isa })
  if vm.csr.isa &&& csrMisaRv64 ≠ 0 ∧ misa &&& csrMisaRv32 ≠ 0 then ⟨true, dest, setIsa csrMisaRv32⟩
  else if vm.csr.isa &&& csrMisaRv32 ≠ 0 ∧ misa &&& (csrMisaRv64 >>> 32) ≠ 0 then
    ⟨true, dest, if vm.machineRv64 then setIsa csrMisaRv64 else vm⟩
  else ⟨true, dest, vm⟩

def riscvCsrSdBit (rv64 : Bool) : BitVec 64 := if rv64 then 0x8000000000000000 else 0x80000000

def riscvCsrStatusXlValid (xl : BitVec 64) : Bool := xl == 1 || xl == 2

/-- The legalisation of a changed status value. The vector state is always off. -/
def statusWarl (machineRv64 : Bool) (status : BitVec 64) : BitVec 64 :=
  let fixXl (status : BitVec 64) (pos : Nat) : BitVec 64 :=
    if machineRv64 && !riscvCsrStatusXlValid (bitCut status pos 2) then bitReplace status pos 2 2
    else status
  let status := fixXl (fixXl status 32) 34
  let status := if bitCut status 11 2 = Priv.hypervisor.bits then bitReplace status 11 2 Priv.user.bits
    else status
  bitReplace status 9 2 0

/-- No path of this function flushes the TLB. -/
def riscvCsrStatus (vm : Hart δ) (dest mask : BitVec 64) (op : CsrOp) : CsrResult δ :=
  let oldStatus := vm.csr.status
  let xs := max (bitCut oldStatus 13 2).toNat (bitCut oldStatus 9 2).toNat
  let status := bitReplace oldStatus 15 2 (BitVec.ofNat 64 xs)
  let (status, dest) := riscvCsrHelperMasked vm.rv64 status dest mask op
  let dest := if xs = 3 then dest ||| riscvCsrSdBit vm.rv64 else dest
  if status ≠ oldStatus then
    let status := statusWarl vm.machineRv64 status
    let vm := if (status &&& 0xA#64) &&& ~~~ (oldStatus &&& 0xA#64) ≠ 0 then
        riscvHartCheckInterrupts vm
      else vm
    ⟨true, dest, vm.setStatus status⟩
  else ⟨true, dest, vm⟩

def riscvCsrIe (vm : Hart δ) (dest mask : BitVec 64) (op : CsrOp) : CsrResult δ :=
  let (new, old) := riscvCsrHelperMasked vm.rv64 vm.csr.ie dest mask op
  ⟨true, old, riscvHartCheckInterrupts (vm.setCsr { vm.csr with ie := new })⟩

def riscvCsrIp (vm : Hart δ) (dest mask : BitVec 64) (op : CsrOp) : CsrResult δ :=
  let (new, old) := riscvCsrHelperMasked vm.rv64 vm.csr.ip dest mask op
  ⟨true, old ||| (vm.pendingIrqs.setWidth 64 &&& mask),
    riscvHartCheckInterrupts (vm.setCsr { vm.csr with ip := new })⟩

def riscvCsrTopi (vm : Hart δ) (dest mask : BitVec 64) : CsrResult δ :=
  if vm.aia.isSome then
    let pending := (riscvInterruptsPending vm &&& mask).setWidth 32
    let irq := if pending ≠ 0 then BitVec.ofNat 32 (topBit pending) else 0
    ⟨true, ((if irq ≠ 0 then 1 else 0) ||| (irq <<< 16)).setWidth 64, vm⟩
  else ⟨false, dest, vm⟩

def riscvIsCsrWrite (dest : BitVec 64) (op : CsrOp) : Bool := dest != 0 || op == .swap

/-- Reports the external interrupt as pending and of highest priority; a write claims it. -/
def riscvCsrTopei (vm : Hart δ) (priv : Priv) (dest : BitVec 64) (op : CsrOp) : CsrResult δ :=
  if vm.aia.isSome then
    let (irq, vm) := riscvGetAiaIrq vm (priv == .supervisor) (riscvIsCsrWrite dest op)
    ⟨true, (irq ||| (irq <<< 16)).setWidth 64, vm⟩
  else ⟨false, dest, vm⟩

/-- `RISCV_INTERRUPT_STIMER` follows the comparison at once. -/
def riscvCsrStimecmpSet (vm : Hart δ) (stimecmp : BitVec 64) : Hart δ :=
  let vm := { vm with stimecmp := stimecmp }
  if stimecmp ≤ vm.timer then riscvInterrupt vm 5 else riscvInterruptClear vm 5

def riscvCsrStimecmp (vm : Hart δ) (dest : BitVec 64) (op : CsrOp) : CsrResult δ :=
  if riscvCsrSstcEnabled vm then
    let (new, old) := riscvCsrHelperL vm.rv64 vm.stimecmp dest (allOnes 64) op
    ⟨true, old, riscvCsrStimecmpSet vm new⟩
  else ⟨false, dest, vm⟩

def riscvCsrStimecmpH (vm : Hart δ) (dest : BitVec 64) (op : CsrOp) : CsrResult δ :=
  if !vm.rv64 && riscvCsrSstcEnabled vm then
    let (new, old) := riscvCsrHelperH vm.stimecmp dest (allOnes 64) op
    ⟨true, old, riscvCsrStimecmpSet vm new⟩
  else ⟨false, dest, vm⟩

def Hart.satp (vm : Hart δ) : BitVec 64 :=
  if vm.rv64 then (BitVec.ofNat 64 vm.mmuMode.code <<< 60) ||| (vm.rootPageTable >>> 12)
  else (BitVec.ofNat 64 vm.mmuMode.code <<< 31) ||| (vm.rootPageTable >>> 12)

/-- The mode and root a `satp` value selects, `none` if its mode is unsupported. -/
def satpDecode (rv64 sv57Allowed : Bool) (satp : BitVec 64) : Option (SatpMode × Addr) :=
  if rv64 then
    match SatpMode.ofCode (bitCut satp 60 4).toNat with
    | none | some .sv32 => none
    | some mode =>
      if mode = .sv57 ∧ sv57Allowed = false then none
      else some (mode, (satp &&& bitMask 44) <<< 12)
  else
    some (if satp.getLsbD 31 then .sv32 else .bare, (satp &&& bitMask 22) <<< 12)

/-- Accepted writes always replace the root, but only switching translation on or off stores
the mode, and only that flushes the TLB. -/
def riscvCsrSatp (vm : Hart δ) (dest : BitVec 64) (op : CsrOp) : CsrResult δ :=
  if vm.csr.status.getLsbD 20 ∧ vm.privMode.code < Priv.machine.code then ⟨false, dest, vm⟩
  else
    let (satp, dest) := riscvCsrHelper vm.rv64 vm.satp dest op
    match satpDecode vm.rv64 vm.sv57Allowed satp with
    | none => ⟨true, dest, vm⟩
    | some (mode, root) =>
      let vm := { vm with rootPageTable := root }
      if decide (vm.mmuMode = .bare) ≠ decide (mode = .bare) then
        ⟨true, dest, { riscvTlbFlush vm with mmuMode := mode }⟩
      else ⟨true, dest, vm⟩

def riscvUpdateFflags (vm : Hart δ) : Hart δ :=
  vm.setCsr { vm.csr with fcsr := vm.csr.fcsr ||| vm.fpuExceptions }

/-- The host's mode after `fpu_set_rounding_mode`: it has no rounding to the larger magnitude, and
rounds to even there. -/
def fpuSetRoundingMode (mode : BitVec 32) : BitVec 32 := if mode = 4#32 then 0 else mode

/-- A rounding mode the host cannot have drops the whole write. -/
def riscvUpdateFcsr (vm : Hart δ) (old new : BitVec 32) : Hart δ :=
  if new = old then vm
  else
    let oldFrm := bitExtU32 old 5 3
    let newFrm := bitExtU32 new 5 3
    if newFrm ≠ oldFrm ∧ 4#32 < newFrm then vm
    else
      let vm := if newFrm ≠ oldFrm then { vm with fpuRounding := fpuSetRoundingMode newFrm } else vm
      let cleared := ~~~ (bitExtU32 new 0 5)
      let vm := if cleared &&& bitExtU32 old 0 5 ≠ 0 ∧ cleared &&& vm.fpuExceptions ≠ 0 then
          { vm with fpuExceptions := 0 }
        else vm
      vm.setCsr { vm.csr with fcsr := new }

def riscvSetFcsr (vm : Hart δ) (fcsr : BitVec 64) : Hart δ :=
  riscvUpdateFcsr vm vm.csr.fcsr (fcsr.setWidth 32)

def riscvCsrFflags (vm : Hart δ) (dest : BitVec 64) (op : CsrOp) : CsrResult δ :=
  if riscvFpuIsEnabled vm then
    let vm := riscvUpdateFflags vm
    let (new, old) := riscvCsrHelperMasked vm.rv64 (vm.csr.fcsr.setWidth 64) dest csrFflagsMask op
    ⟨true, old, riscvSetFcsr vm new⟩
  else ⟨false, dest, vm⟩

def riscvCsrFrm (vm : Hart δ) (dest : BitVec 64) (op : CsrOp) : CsrResult δ :=
  if riscvFpuIsEnabled vm then
    let fcsr := vm.csr.fcsr.setWidth 64
    let (new, old) := riscvCsrHelperMasked vm.rv64 (fcsr >>> 5) dest csrFrmMask op
    ⟨true, old, riscvSetFcsr vm (bitReplace fcsr 5 3 new)⟩
  else ⟨false, dest, vm⟩

def riscvCsrFcsr (vm : Hart δ) (dest : BitVec 64) (op : CsrOp) : CsrResult δ :=
  if riscvFpuIsEnabled vm then
    let vm := riscvUpdateFflags vm
    let (new, old) := riscvCsrHelperMasked vm.rv64 (vm.csr.fcsr.setWidth 64) dest csrFcsrMask op
    ⟨true, old, riscvSetFcsr vm new⟩
  else ⟨false, dest, vm⟩

/-! Indirect access to the interrupt files. -/

/-- The word after the operation, what is handed back, and whether the word was written. -/
def riscvCsrAtomicHelper (val : BitVec 32) (dest : BitVec 64) (op : CsrOp) :
    BitVec 32 × BitVec 64 × Bool :=
  match op with
  | .swap => (dest.setWidth 32, val.setWidth 64, true)
  | .setbits =>
    if dest ≠ 0 then (val ||| dest.setWidth 32, val.setWidth 64, true)
    else (val, val.setWidth 64, false)
  | .clearbits =>
    if dest ≠ 0 then (val &&& ~~~ (dest.setWidth 32), val.setWidth 64, true)
    else (val, val.setWidth 64, false)

inductive AiaReg
  | eidelivery | eithreshold | eip (i : Fin 8) | eie (i : Fin 8)
  deriving DecidableEq, Repr

def AiaRegfile.get (file : AiaRegfile) : AiaReg → BitVec 32
  | .eidelivery => file.eidelivery
  | .eithreshold => file.eithreshold
  | .eip i => file.eip i
  | .eie i => file.eie i

def AiaRegfile.set (file : AiaRegfile) (value : BitVec 32) : AiaReg → AiaRegfile
  | .eidelivery => { file with eidelivery := value }
  | .eithreshold => { file with eithreshold := value }
  | .eip i => file.setEip i value
  | .eie i => { file with eie := update file.eie i value }

/-- The interrupt file is rescanned if the register was written. -/
def riscvCsrAiaHelper (vm : Hart δ) (files : Bool → AiaRegfile) (smode : Bool) (reg : AiaReg)
    (dest : BitVec 64) (op : CsrOp) : CsrResult δ :=
  let file := files smode
  let (value, old, written) := riscvCsrAtomicHelper (file.get reg) dest op
  let vm := vm.setAia smode (file.set value reg)
  ⟨true, old, if written then riscvUpdateAiaState vm smode else vm⟩

/-- On RV64 an even register is accessed together with the one after it. -/
def riscvCsrAiaPairHelper (vm : Hart δ) (smode : Bool) (reg : Nat) (arr : Fin 8 → AiaReg)
    (dest : BitVec 64) (op : CsrOp) : CsrResult δ :=
  match vm.aia with
  | none => ⟨false, dest, vm⟩
  | some files =>
    if vm.rv64 && reg % 2 == 1 then ⟨false, dest, vm⟩
    else if inRange : reg < 8 then
      let low := riscvCsrAiaHelper vm files smode (arr ⟨reg, inRange⟩) dest op
      match low.vm.aia with
      | none => low
      | some files =>
        if next : vm.rv64 = true ∧ reg + 1 < 8 then
          let high := riscvCsrAiaHelper low.vm files smode (arr ⟨reg + 1, next.2⟩) (dest >>> 32) op
          ⟨true, low.dest ||| (high.dest <<< 32), high.vm⟩
        else low
    else ⟨false, dest, vm⟩

def riscvCsrIndirect (vm : Hart δ) (priv : Priv) (csri : BitVec 64) (dest : BitVec 64) (op : CsrOp) :
    CsrResult δ :=
  let smode := priv == .supervisor
  let csri := (csri.setWidth 32).toNat
  match vm.aia with
  | none => ⟨false, dest, vm⟩
  | some files =>
    if csri = 0x70 then riscvCsrAiaHelper vm files smode .eidelivery (dest &&& 1) op
    else if csri = 0x72 then riscvCsrAiaHelper vm files smode .eithreshold dest op
    else if 0x30 ≤ csri ∧ csri ≤ 0x3F then riscvCsrZero vm
    else if 0x80 ≤ csri ∧ csri ≤ 0xBF then riscvCsrAiaPairHelper vm smode (csri - 0x80) .eip dest op
    else if 0xC0 ≤ csri ∧ csri ≤ 0xFF then riscvCsrAiaPairHelper vm smode (csri - 0xC0) .eie dest op
    else ⟨false, dest, vm⟩

/-- The implemented registers. `zero` and `zeroH` read as zero and ignore writes, the latter on
RV32 only. -/
inductive CsrName
  | fflags | frm | fcsr | seed
  | counter (i : Nat) | counterH (i : Nat)
  | sstatus | mstatus | misa | satp
  | sie | mie | sip | mip | stopi | mtopi | stimecmp | stimecmpH
  | tvec (priv : Priv) | scratch (priv : Priv) | epc (priv : Priv) | cause (priv : Priv)
  | tval (priv : Priv) | counteren (priv : Priv) | iselect (priv : Priv) | ireg (priv : Priv)
  | topei (priv : Priv)
  | medeleg | mideleg | senvcfg | menvcfg | menvcfgH | mseccfg | mseccfgH
  | marchid | mimpid | mhartid
  | zero | zeroH
  deriving DecidableEq, Repr

/-- The switch of `riscv_csr_op_internal`; `none` is an absent register. -/
def csrName (id : BitVec 12) : Option CsrName :=
  match id.toNat with
  | 0x001 => some .fflags
  | 0x002 => some .frm
  | 0x003 => some .fcsr
  | 0x015 => some .seed
  | 0xC00 => some (.counter 0)
  | 0xC01 => some (.counter 1)
  | 0xC02 => some (.counter 2)
  | 0xC80 => some (.counterH 0)
  | 0xC81 => some (.counterH 1)
  | 0xC82 => some (.counterH 2)
  | 0x100 => some .sstatus
  | 0x104 => some .sie
  | 0x114 => some .zeroH
  | 0x105 => some (.tvec .supervisor)
  | 0x106 => some (.counteren .supervisor)
  | 0x10A => some .senvcfg
  | 0x120 => some .zero
  | 0x150 => some (.iselect .supervisor)
  | 0x151 => some (.ireg .supervisor)
  | 0x140 => some (.scratch .supervisor)
  | 0x141 => some (.epc .supervisor)
  | 0x142 => some (.cause .supervisor)
  | 0x143 => some (.tval .supervisor)
  | 0x144 => some .sip
  | 0x154 => some .zeroH
  | 0x15C => some (.topei .supervisor)
  | 0xDB0 => some .stopi
  | 0x14D => some .stimecmp
  | 0x15D => some .stimecmpH
  | 0x180 => some .satp
  | 0xF11 => some .zero
  | 0xF12 => some .marchid
  | 0xF13 => some .mimpid
  | 0xF14 => some .mhartid
  | 0x300 => some .mstatus
  | 0x310 => some .zero
  | 0x301 => some .misa
  | 0x302 => some .medeleg
  | 0x303 => some .mideleg
  | 0x313 => some .zeroH
  | 0x304 => some .mie
  | 0x314 => some .zeroH
  | 0x305 => some (.tvec .machine)
  | 0x306 => some (.counteren .machine)
  | 0x340 => some (.scratch .machine)
  | 0x341 => some (.epc .machine)
  | 0x342 => some (.cause .machine)
  | 0x343 => some (.tval .machine)
  | 0x344 => some .mip
  | 0x354 => some .zeroH
  | 0x35C => some (.topei .machine)
  | 0xFB0 => some .mtopi
  | 0x30A => some .menvcfg
  | 0x31A => some .menvcfgH
  | 0x747 => some .mseccfg
  | 0x757 => some .mseccfgH
  | 0x320 => some .zero
  | 0x350 => some (.iselect .machine)
  | 0x351 => some (.ireg .machine)
  | n =>
    -- pmpcfg, pmpaddr and the machine counters
    if (0x3A0 ≤ n ∧ n ≤ 0x3A3) ∨ (0x3B0 ≤ n ∧ n ≤ 0x3BF) ∨ n = 0xB00 ∨ (0xB02 ≤ n ∧ n ≤ 0xB1F) then
      some .zero
    else if n = 0xB80 ∨ (0xB82 ≤ n ∧ n ≤ 0xB9F) then some .zeroH
    else none

section Internal
variable (vm : Hart δ) (dest : BitVec 64) (op : CsrOp)

def csrStore (result : BitVec 64 × BitVec 64) (store : BitVec 64 → Csr) : CsrResult δ :=
  ⟨true, result.2, vm.setCsr (store result.1)⟩

def riscvCsrAccess : CsrName → CsrResult δ
  | .fflags => riscvCsrFflags vm dest op
  | .frm => riscvCsrFrm vm dest op
  | .fcsr => riscvCsrFcsr vm dest op
  | .seed => riscvCsrSeed vm dest op
  | .counter i => riscvCsrCounter vm dest i
  | .counterH i => riscvCsrCounterH vm dest i
  | .sstatus => riscvCsrStatus vm dest csrSstatusMask op
  | .mstatus => riscvCsrStatus vm dest csrMstatusMask op
  | .misa => riscvCsrMisa vm dest op
  | .satp => riscvCsrSatp vm dest op
  | .sie => riscvCsrIe vm dest csrSeipMask op
  | .mie => riscvCsrIe vm dest csrMeipMask op
  | .sip => riscvCsrIp vm dest csrSeipMask op
  | .mip => riscvCsrIp vm dest csrMeipMask op
  | .stopi => riscvCsrTopi vm dest csrSeipMask
  | .mtopi => riscvCsrTopi vm dest csrMeipMask
  | .stimecmp => riscvCsrStimecmp vm dest op
  | .stimecmpH => riscvCsrStimecmpH vm dest op
  | .tvec p =>
    csrStore vm (riscvCsrTvec vm.rv64 (vm.csr.tvec p) dest op) fun v =>
      { vm.csr with tvec := update vm.csr.tvec p v }
  | .scratch p =>
    csrStore vm (riscvCsrHelper vm.rv64 (vm.csr.scratch p) dest op) fun v =>
      { vm.csr with scratch := update vm.csr.scratch p v }
  | .epc p =>
    csrStore vm (riscvCsrEpc vm.rv64 (vm.csr.epc p) dest op) fun v =>
      { vm.csr with epc := update vm.csr.epc p v }
  | .cause p =>
    csrStore vm (riscvCsrHelper vm.rv64 (vm.csr.cause p) dest op) fun v =>
      { vm.csr with cause := update vm.csr.cause p v }
  | .tval p =>
    csrStore vm (riscvCsrHelper vm.rv64 (vm.csr.tval p) dest op) fun v =>
      { vm.csr with tval := update vm.csr.tval p v }
  | .counteren p =>
    csrStore vm (riscvCsrHelperMasked vm.rv64 (vm.csr.counteren p) dest csrCounterenMask op) fun v =>
      { vm.csr with counteren := update vm.csr.counteren p v }
  | .iselect p =>
    csrStore vm (riscvCsrHelper vm.rv64 (vm.csr.iselect p) dest op) fun v =>
      { vm.csr with iselect := update vm.csr.iselect p v }
  | .ireg p => riscvCsrIndirect vm p (vm.csr.iselect p) dest op
  | .topei p => riscvCsrTopei vm p dest op
  | .medeleg =>
    csrStore vm (riscvCsrHelperMasked vm.rv64 (vm.csr.edeleg .machine) dest csrMedelegMask op) fun v =>
      { vm.csr with edeleg := update vm.csr.edeleg .machine v }
  | .mideleg =>
    csrStore vm (riscvCsrHelperMasked vm.rv64 (vm.csr.ideleg .machine) dest csrMidelegMask op) fun v =>
      { vm.csr with ideleg := update vm.csr.ideleg .machine v }
  | .senvcfg =>
    csrStore vm (riscvCsrHelperL vm.rv64 (vm.csr.envcfg .supervisor) dest csrSenvcfgMask op) fun v =>
      { vm.csr with envcfg := update vm.csr.envcfg .supervisor v }
  | .menvcfg =>
    csrStore vm (riscvCsrHelperL vm.rv64 (vm.csr.envcfg .machine) dest csrMenvcfgMask op) fun v =>
      { vm.csr with envcfg := update vm.csr.envcfg .machine v }
  | .menvcfgH =>
    if vm.rv64 then ⟨false, dest, vm⟩
    else csrStore vm (riscvCsrHelperH (vm.csr.envcfg .machine) dest csrMenvcfgMask op) fun v =>
      { vm.csr with envcfg := update vm.csr.envcfg .machine v }
  | .mseccfg =>
    csrStore vm (riscvCsrHelperL vm.rv64 vm.csr.mseccfg dest csrMseccfgMask op) fun v =>
      { vm.csr with mseccfg := v }
  | .mseccfgH =>
    if vm.rv64 then ⟨false, dest, vm⟩
    else csrStore vm (riscvCsrHelperH vm.csr.mseccfg dest csrMseccfgMask op) fun v =>
      { vm.csr with mseccfg := v }
  | .marchid => riscvCsrConst vm 0x5256564D
  | .mimpid => riscvCsrConst vm (vm.mimpid.setWidth 64)
  | .mhartid => riscvCsrConst vm (vm.csr.hartid.setWidth 64)
  | .zero => riscvCsrZero vm
  | .zeroH => riscvCsrZeroH vm dest

def riscvCsrOpInternal (id : BitVec 12) : CsrResult δ :=
  match csrName id with
  | some name => riscvCsrAccess vm dest op name
  | none => ⟨false, dest, vm⟩

end Internal

def riscvCsrReadonly (id : BitVec 12) : Bool := id.extractLsb' 10 2 == 3#2

def riscvCsrPrivilege (id : BitVec 12) : Nat := (id.extractLsb' 8 2).toNat

/-- A 32-bit result is sign-extended. -/
def riscvCsrOp (vm : Hart δ) (id : BitVec 12) (dest : BitVec 64) (op : CsrOp) : CsrResult δ :=
  if riscvCsrReadonly id ∧ (op = .swap ∨ dest ≠ 0) then ⟨false, dest, vm⟩
  else if vm.privMode.code < riscvCsrPrivilege id then ⟨false, dest, vm⟩
  else
    let result := riscvCsrOpInternal vm dest op id
    { result with
      dest := if result.vm.rv64 then result.dest else (result.dest.setWidth 32).signExtend 64 }

def riscvCsrInit (rv64 : Bool) (hartid : BitVec 32) : Csr where
  status := if rv64 then 0xA00000000 else 0
  ie := 0
  ip := 0
  isa := if rv64 then csrMisaRv64 else csrMisaRv32
  edeleg := update (fun _ => 0) .hypervisor 0xFFFFFFFF
  ideleg := update (fun _ => 0) .hypervisor 0xFFFFFFFF
  tvec := fun _ => 0
  scratch := fun _ => 0
  epc := fun _ => 0
  cause := fun _ => 0
  tval := fun _ => 0
  iselect := fun _ => 0
  counteren := fun _ => 0
  envcfg := fun _ => 0
  mseccfg := 0
  fcsr := 0
  hartid := hartid

/-- `riscv_hart_init`: a zeroed hart in M-mode with empty caches, on a machine without JIT and
without a debugger. -/
def riscvHartInit (mem : GuestRam) (host : HostMem) (mmioDevs : List (MmioDev δ)) (devices : δ)
    (rv64 sv57Allowed : Bool) : Hart δ :=
  riscvTlbFlush
    { running := false
      registers := fun _ => 0
      pc := 0
      fpuRegisters := fun _ => 0
      tlb := fun _ => ⟨0, 0, 0, 0⟩
      jtlb := fun _ => ⟨0, 0⟩
      mem := mem
      host := host
      pages := []
      mmioDevs := mmioDevs
      devices := devices
      gdbHalts := false
      machineRv64 := rv64
      sv57Allowed := sv57Allowed
      rootPageTable := 0
      mmuMode := .bare
      privMode := .machine
      rv64 := rv64
      trap := false
      trapPc := 0
      userland := false
      lrsc := false
      lrscAddr := 0
      lrscCas := 0
      aia := none
      stimecmp := 0xFFFFFFFFFFFFFFFF
      pendingIrqs := 0
      csr := riscvCsrInit rv64 0
      jitEnabled := false
      jitHarvard := false
      mimpid := 0
      timer := 0
      entropy := 0
      fpuExceptions := 0
      fpuRounding := 0 }

end Rvvm
