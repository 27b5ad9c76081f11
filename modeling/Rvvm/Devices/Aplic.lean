import Rvvm.Library.BitWords
import Rvvm.Library.Emitting

/-! The advanced platform-level interrupt controller: one set of sources, each delegated to the
supervisor domain or kept by the machine domain, and the register window of either domain. -/
namespace Rvvm.Aplic
open BitWords Emitting

/-- `APLIC_SRC_REGS` words in a bit set, and the identities 1 to `APLIC_SRC_COUNT`. -/
def aplicSrcRegs : Nat := 2
def aplicSrcCount : Nat := 63

inductive AplicArray where
  | deleg | raised | invert | pending | enabled | source | target
  deriving DecidableEq

/-- What may be indexed: the words of a bit set, or the identities. -/
def AplicArray.InBounds : AplicArray → Nat → Prop
  | .source, i | .target, i => 1 ≤ i ∧ i ≤ aplicSrcCount
  | _, i => i < aplicSrcRegs

/-- The arrays, past their ends whatever follows them in memory, `config` of both domains, the
supervisor's at `true`, and how many harts the machine has. -/
structure AplicDev where
  words : AplicArray → Nat → BitVec 32
  config : Bool → BitVec 32
  harts : Nat

/-- An array is indexed, or a message is sent to a hart: for a source, unless the guest asked for it. -/
inductive AplicEvent where
  | access (a : AplicArray) (i : Nat)
  | msi (source : Option Nat) (smode : Bool) (hartid : Nat) (irq : BitVec 32)
  deriving DecidableEq

abbrev AplicM (α : Type) := Emitting AplicEvent AplicDev α

def AplicDev.store (aplic : AplicDev) (a : AplicArray) (i : Nat) (val : BitVec 32) : AplicDev :=
  { aplic with words := Function.update aplic.words a (Function.update (aplic.words a) i val) }

/-! Atomic accesses to the arrays. -/

def load (a : AplicArray) (i : Nat) : AplicM (BitVec 32) := do
  emit (.access a i)
  read fun aplic => aplic.words a i

def store (a : AplicArray) (i : Nat) (val : BitVec 32) : AplicM Unit := do
  emit (.access a i)
  modify fun aplic => aplic.store a i val

/-- Read-modify-write, yielding the word before. -/
def rmw (a : AplicArray) (i : Nat) (f : BitVec 32 → BitVec 32) : AplicM (BitVec 32) := do
  emit (.access a i)
  let old ← read fun aplic => aplic.words a i
  modify fun aplic => aplic.store a i (f old)
  return old

def atomicOr (a : AplicArray) (i : Nat) (val : BitVec 32) : AplicM (BitVec 32) := rmw a i (· ||| val)

def atomicAnd (a : AplicArray) (i : Nat) (val : BitVec 32) : AplicM (BitVec 32) := rmw a i (· &&& val)

def loadConfig (smode : Bool) : AplicM (BitVec 32) := read fun aplic => aplic.config smode

/-- `irq - 1 < APLIC_SRC_COUNT` in unsigned arithmetic. -/
def isSource (irq : Nat) : Bool := decide (1 ≤ irq ∧ irq ≤ aplicSrcCount)

theorem isSource_word {irq : Nat} (source : isSource irq = true) : irq / 32 < aplicSrcRegs := by
  rw [isSource, decide_eq_true_eq, aplicSrcCount] at source
  rw [aplicSrcRegs]
  omega

def aplicDomaincfgBe : BitVec 32 := 0x1
def aplicDomaincfgIe : BitVec 32 := 0x100
def aplicDomaincfgMask : BitVec 32 := 0x101
def aplicDomaincfg : BitVec 32 := 0x80000004

def aplicSourcecfgDelegate : BitVec 32 := 0x400
def aplicSourcecfgDetached : BitVec 32 := 0x1
def aplicSourcecfgEdgeFall : BitVec 32 := 0x5
def aplicSourcecfgLvlLow : BitVec 32 := 0x7
def aplicSourcecfgMask : BitVec 32 := 0x7

/-- `target >> 18`. -/
def hartid (target : BitVec 32) : Nat := (target >>> 18).toNat

/-- A target that names no hart of the machine is passed over in silence. -/
def aplicGenMsi (source : Option Nat) (smode : Bool) (target : BitVec 32) : AplicM Unit := do
  let harts ← read fun aplic => aplic.harts
  if hartid target < harts then emit (.msi source smode (hartid target) (target &&& 0x3FF)) else pure ()

def aplicRectifiedBits (reg : Nat) : AplicM (BitVec 32) := do
  let raised ← load .raised reg
  let invert ← load .invert reg
  return raised ^^^ invert

def aplicRectifiedSrc (irq : Nat) : AplicM Bool := do
  let bits ← aplicRectifiedBits (irq / 32)
  return bits &&& mask irq != 0

def aplicDetachedSrc (irq : Nat) : AplicM Bool := do
  let source ← load .source irq
  return source ≤ aplicSourcecfgDetached

/-- The source becomes pending, unless it can be forwarded at once. -/
def aplicPendingInterrupt (irq : Nat) : AplicM Unit :=
  if isSource irq then do
    let enabled ← load .enabled (irq / 32)
    if enabled &&& mask irq ≠ 0 then do
      let deleg ← load .deleg (irq / 32)
      let smode := deleg &&& mask irq != 0
      let config ← loadConfig smode
      if config &&& aplicDomaincfgIe ≠ 0 then do
        let target ← load .target irq
        aplicGenMsi (some irq) smode target
      else discard (atomicOr .pending (irq / 32) (mask irq))
    else discard (atomicOr .pending (irq / 32) (mask irq))
  else pure ()

def aplicUpdateInterrupt (irq : Nat) : AplicM Unit := do
  let rectified ← aplicRectifiedSrc irq
  if rectified then do
    let detached ← aplicDetachedSrc irq
    if detached then pure () else aplicPendingInterrupt irq
  else pure ()

/-- `aplic_set_irq`. Both edges are looked at, since the input may be inverted. -/
def aplicSetIrq (irq : Nat) (lvl : Bool) : AplicM Unit :=
  if isSource irq then
    if lvl then do
      let raised ← atomicOr .raised (irq / 32) (mask irq)
      if ~~~ raised &&& mask irq ≠ 0 then aplicUpdateInterrupt irq else pure ()
    else do
      let raised ← atomicAnd .raised (irq / 32) (~~~ mask irq)
      if raised &&& mask irq ≠ 0 then aplicUpdateInterrupt irq else pure ()
  else pure ()

/-- `domain->invert`: the machine domain has what is not delegated. -/
def domainInvert (smode : Bool) : BitVec 32 := if smode then 0 else BitVec.allOnes 32

section Domain

variable (smode : Bool)

def aplicValidBits (reg : Nat) : AplicM (BitVec 32) := do
  let deleg ← load .deleg reg
  return deleg ^^^ domainInvert smode

def aplicValidSrc (irq : Nat) : AplicM Bool := do
  let bits ← aplicValidBits smode (irq / 32)
  return bits &&& mask irq != 0

def aplicUngatedSrc (irq : Nat) : AplicM Bool := do
  let valid ← aplicValidSrc smode irq
  if valid then do
    let rectified ← aplicRectifiedSrc irq
    if rectified then return true else aplicDetachedSrc irq
  else return false

def aplicReadBits (a : AplicArray) (reg : Nat) : AplicM (BitVec 32) :=
  if reg < aplicSrcRegs then do
    let word ← load a reg
    let valid ← aplicValidBits smode reg
    return word &&& valid
  else return 0

def aplicReadIn (reg : Nat) : AplicM (BitVec 32) :=
  if reg < aplicSrcRegs then do
    let rectified ← aplicRectifiedBits reg
    let valid ← aplicValidBits smode reg
    return rectified &&& valid
  else return 0

def aplicReadSourcecfg (irq : Nat) : AplicM (BitVec 32) :=
  if isSource irq then do
    let valid ← aplicValidSrc smode irq
    if valid then load .source irq
    else if domainInvert smode ≠ 0 then return aplicSourcecfgDelegate
    else return 0
  else return 0

def aplicReadTargetcfg (irq : Nat) : AplicM (BitVec 32) :=
  if isSource irq then do
    let valid ← aplicValidSrc smode irq
    if valid then load .target irq else return 0
  else return 0

def aplicWriteSetipnum (irq : Nat) : AplicM Unit :=
  if isSource irq then do
    let ungated ← aplicUngatedSrc smode irq
    if ungated then aplicPendingInterrupt irq else pure ()
  else pure ()

def aplicWriteSetip (reg : Nat) (val : BitVec 32) : AplicM Unit :=
  if reg < aplicSrcRegs then do
    let valid ← aplicValidBits smode reg
    (bits (val &&& valid)).forM fun bit => aplicWriteSetipnum smode (reg * 32 + bit)
  else pure ()

def aplicWriteClear (a : AplicArray) (reg : Nat) (val : BitVec 32) : AplicM Unit :=
  if reg < aplicSrcRegs then do
    let valid ← aplicValidBits smode reg
    if val &&& valid ≠ 0 then discard (atomicAnd a reg (~~~ (val &&& valid))) else pure ()
  else pure ()

/-- The enabled bits that were not set before. -/
def aplicEnable (reg : Nat) (set : BitVec 32) : AplicM (BitVec 32) :=
  if set ≠ 0 then do
    let old ← atomicOr .enabled reg set
    return set &&& ~~~ old
  else return set

/-- The loop goes over everything that was pending in the word, newly enabled or not. -/
def aplicWriteSetie (reg : Nat) (val : BitVec 32) : AplicM Unit :=
  if reg < aplicSrcRegs then do
    let valid ← aplicValidBits smode reg
    let set ← aplicEnable reg (val &&& valid)
    if set ≠ 0 then do
      let irqs ← atomicAnd .pending reg (~~~ set)
      (bits irqs).forM fun bit => aplicPendingInterrupt (reg * 32 + bit)
    else pure ()
  else pure ()

/-- Only the machine domain delegates. -/
def aplicDelegate (irq : Nat) (val : BitVec 32) : AplicM Unit :=
  if domainInvert smode ≠ 0 then
    if val &&& aplicSourcecfgDelegate ≠ 0 then discard (atomicOr .deleg (irq / 32) (mask irq))
    else discard (atomicAnd .deleg (irq / 32) (~~~ mask irq))
  else pure ()

def aplicWriteSourcecfg (irq : Nat) (val : BitVec 32) : AplicM Unit :=
  if isSource irq then do
    aplicDelegate smode irq val
    let valid ← aplicValidSrc smode irq
    if valid then do
      let cfg := val &&& aplicSourcecfgMask
      store .source irq cfg
      if cfg = aplicSourcecfgLvlLow ∨ cfg = aplicSourcecfgEdgeFall then
        discard (atomicOr .invert (irq / 32) (mask irq))
      else discard (atomicAnd .invert (irq / 32) (~~~ mask irq))
    else pure ()
  else pure ()

/-- The identity is not compared with the number of sources here. -/
def aplicWriteTarget (irq : Nat) (val : BitVec 32) : AplicM Unit := do
  let valid ← aplicValidSrc smode irq
  if valid then store .target irq val else pure ()

end Domain

inductive AplicReg where
  | domaincfg
  | setipnum | clripnum | setienum | clrienum
  | setipnumLe | setipnumBe
  | genmsi
  | setip (reg : Nat) | inClrip (reg : Nat) | setie (reg : Nat) | clrie (reg : Nat)
  | sourcecfg (irq : Nat) | target (irq : Nat)
  | msiaddrcfgh
  | unmapped
  deriving DecidableEq

/-- The offset decoding both handlers share. -/
def aplicReg (off : Nat) : AplicReg :=
  if off = 0x0000 then .domaincfg
  else if off = 0x1CDC then .setipnum
  else if off = 0x1DDC then .clripnum
  else if off = 0x1EDC then .setienum
  else if off = 0x1FDC then .clrienum
  else if off = 0x2000 then .setipnumLe
  else if off = 0x2004 then .setipnumBe
  else if off = 0x3000 then .genmsi
  else if 0x1C00 ≤ off ∧ off < 0x1C20 then .setip ((off - 0x1C00) / 4)
  else if 0x1D00 ≤ off ∧ off < 0x1D20 then .inClrip ((off - 0x1D00) / 4)
  else if 0x1E00 ≤ off ∧ off < 0x1E20 then .setie ((off - 0x1E00) / 4)
  else if 0x1F00 ≤ off ∧ off < 0x1F20 then .clrie ((off - 0x1F00) / 4)
  else if 0x0004 ≤ off ∧ off < 0x1000 then .sourcecfg ((off - 0x0004) / 4 + 1)
  else if 0x3004 ≤ off ∧ off < 0x4000 then .target ((off - 0x3004) / 4 + 1)
  else if off = 0x1BC4 ∨ off = 0x1BCC then .msiaddrcfgh
  else .unmapped

def swapBytes (x : BitVec 32) : BitVec 32 :=
  x.extractLsb' 0 8 ++ x.extractLsb' 8 8 ++ x.extractLsb' 16 8 ++ x.extractLsb' 24 8

def domainOrder (config data : BitVec 32) : BitVec 32 :=
  if config &&& aplicDomaincfgBe ≠ 0 then swapBytes data else data

def aplicReadReg (smode : Bool) (config : BitVec 32) : AplicReg → AplicM (BitVec 32)
  | .domaincfg => return config ||| aplicDomaincfg
  | .setip reg => aplicReadBits smode .pending reg
  | .inClrip reg => aplicReadIn smode reg
  | .setie reg => aplicReadBits smode .enabled reg
  | .sourcecfg irq => aplicReadSourcecfg smode irq
  | .target irq => aplicReadTargetcfg smode irq
  | .msiaddrcfgh => return 0x80000000
  | _ => return 0

def aplicMmioRead (smode : Bool) (off : Nat) : AplicM (BitVec 32) := do
  let config ← loadConfig smode
  let val ← aplicReadReg smode config (aplicReg off)
  return domainOrder config val

/-- The number registers take an identity, of which `aplic_write_clripnum` and the enable registers
make a word and a bit. -/
def aplicWriteReg (smode : Bool) (data val : BitVec 32) : AplicReg → AplicM Unit
  | .domaincfg =>
    modify fun aplic => { aplic with config := Function.update aplic.config smode (val &&& aplicDomaincfgMask) }
  | .setipnum => aplicWriteSetipnum smode val.toNat
  | .clripnum => aplicWriteClear smode .pending (val.toNat / 32) (mask val.toNat)
  | .setienum => aplicWriteSetie smode (val.toNat / 32) (mask val.toNat)
  | .clrienum => aplicWriteClear smode .enabled (val.toNat / 32) (mask val.toNat)
  | .setipnumLe => aplicWriteSetipnum smode data.toNat
  | .setipnumBe => aplicWriteSetipnum smode (swapBytes data).toNat
  | .genmsi => aplicGenMsi none smode val
  | .setip reg => aplicWriteSetip smode reg val
  | .inClrip reg => aplicWriteClear smode .pending reg val
  | .setie reg => aplicWriteSetie smode reg val
  | .clrie reg => aplicWriteClear smode .enabled reg val
  | .sourcecfg irq => aplicWriteSourcecfg smode irq val
  | .target irq => aplicWriteTarget smode irq val
  | .msiaddrcfgh | .unmapped => pure ()

/-- `data` holds the bytes of the access, lowest first. -/
def aplicMmioWrite (smode : Bool) (off : Nat) (data : BitVec 32) : AplicM Unit := do
  let config ← loadConfig smode
  aplicWriteReg smode data (domainOrder config data) (aplicReg off)

theorem aplicMmioWrite_domaincfg (smode : Bool) {off : Nat} (data : BitVec 32) (reg : aplicReg off = .domaincfg) :
    aplicMmioWrite smode off data =
      (do aplicWriteReg smode data (domainOrder (← loadConfig smode) data) .domaincfg) := by
  rw [aplicMmioWrite, reg]

/-- `rvvm_riscv_aplic_init`: everything delegated, nothing configured. -/
def aplicInit (harts : Nat) : AplicDev where
  words := fun a i => if a = .deleg ∧ i < aplicSrcRegs then BitVec.allOnes 32 else 0
  config := fun _ => 0
  harts := harts

end Rvvm.Aplic
