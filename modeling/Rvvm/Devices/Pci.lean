import Rvvm.Devices.Plic

/-! The PCI bus: how functions signal interrupts, through the four shared INTx lines or by
messages, and the configuration registers that govern it. BARs, bridges and the read-only part of
the configuration space have no influence on interrupts and are left out. -/
namespace Rvvm.Pci

abbrev Reg := BitVec 32

/-- What a bus asks of `rvvm_irq_dev_t`, an interrupt controller with level-triggered lines. -/
structure Intc (σ : Type) where
  setIrq : σ → Nat → Bool → σ
  level : σ → Nat → Bool
  valid : Nat → Prop
  level_setIrq : ∀ s irq lvl, valid irq → level (setIrq s irq lvl) = Function.update (level s) irq lvl

namespace Intc
variable {σ : Type} (ctrl : Intc σ)

def raise (s : σ) (irq : Nat) : σ := ctrl.setIrq s irq true

def lower (s : σ) (irq : Nat) : σ := ctrl.setIrq s irq false

def send (s : σ) (irq : Nat) : σ := ctrl.lower (ctrl.raise s irq) irq

end Intc

/-- The interrupt state of `rvvm_pci_function`; `msix` holds the vector table and after it the
pending bits. -/
structure PciFunc where
  irqPin : Nat
  command : Reg
  status : Reg
  irqLine : Reg
  pmCsr : Reg
  msiControl : Reg
  msiAddrLow : Reg
  msiAddrHigh : Reg
  msiData : Reg
  msiMask : Reg
  msiPending : Reg
  msixControl : Reg
  msix : Nat → Reg

/-- `rvvm_pci_bus`: functions by bus address, the controller behind the four lines, and the
messages sent so far. -/
structure PciBus (σ : Type) where
  funcs : Nat → Option PciFunc
  irqs : Fin 4 → Nat
  intc : σ
  sent : List (BitVec 64 × Reg)

variable {σ : Type} (ctrl : Intc σ)

def pciCmdIntxDisable : Nat := 10

def pciCmdBusMaster : Nat := 2

def pciCmdMask : Reg := 0x0407

def pciStatusIntx : Reg := 0x08

def PciFunc.intxDisabled (func : PciFunc) : Bool := func.command.getLsbD pciCmdIntxDisable

def PciFunc.busMaster (func : PciFunc) : Bool := func.command.getLsbD pciCmdBusMaster

def PciFunc.msiEnabled (func : PciFunc) : Bool := func.msiControl.getLsbD 16

def PciFunc.msixEnabled (func : PciFunc) : Bool := func.msixControl.getLsbD 31

def PciFunc.msixMasked (func : PciFunc) : Bool := func.msixControl.getLsbD 30

def PciBus.setFunc (bus : PciBus σ) (addr : Nat) (func : PciFunc) : PciBus σ :=
  { bus with funcs := Function.update bus.funcs addr (some func) }

/-- The index of a function's line, from its device number and pin. -/
def pciIntxLine (addr irqPin : Nat) : Fin 4 := ⟨(addr / 8 + irqPin + 3) % 4, Nat.mod_lt _ (by decide)⟩

def pciFuncIntxIrq (bus : PciBus σ) (addr : Nat) (func : PciFunc) : Nat :=
  bus.irqs (pciIntxLine addr func.irqPin)

/-! INTx. -/

def pciFuncSendIntxIrq (bus : PciBus σ) (addr : Nat) (func : PciFunc) (raise : Bool) : PciBus σ :=
  if !func.intxDisabled && func.irqPin != 0 then
    let irq := pciFuncIntxIrq bus addr func
    { bus.setFunc addr { func with status := pciStatusIntx } with
      intc := if raise then ctrl.raise bus.intc irq else ctrl.send bus.intc irq }
  else bus

def pciFuncLowerIntxIrq (bus : PciBus σ) (addr : Nat) (func : PciFunc) : PciBus σ :=
  { bus.setFunc addr { func with status := 0 } with
    intc := ctrl.lower bus.intc (pciFuncIntxIrq bus addr func) }

/-! Messages. The functions that may find messages disabled return `none` then. -/

def PciBus.sendMsi (bus : PciBus σ) (low high data : Reg) : PciBus σ :=
  { bus with sent := bus.sent ++ [(high ++ low, data)] }

def pciFuncSendMsiIrq (bus : PciBus σ) (addr : Nat) (func : PciFunc) : Option (PciBus σ) :=
  if func.msiEnabled then
    some (if func.busMaster then
        if func.msiMask = 0 then bus.sendMsi func.msiAddrLow func.msiAddrHigh func.msiData
        else bus.setFunc addr { func with msiPending := 1 }
      else bus)
  else none

def pciFuncLowerMsiIrq (bus : PciBus σ) (addr : Nat) (func : PciFunc) : Option (PciBus σ) :=
  if func.msiEnabled then some (bus.setFunc addr { func with msiPending := 0 }) else none

def pciMsixMaxIrqs : Nat := 32

/-- `PCI_MSIX_TBL_SIZE`, the index of the pending bits. -/
def pciMsixTblSize : Nat := 128

def PciFunc.setMsix (func : PciFunc) (reg : Nat) (val : Reg) : PciFunc :=
  { func with msix := Function.update func.msix reg val }

def pciFuncSendMsixIrq (bus : PciBus σ) (addr : Nat) (func : PciFunc) (msiId : Nat) : Option (PciBus σ) :=
  if func.msixEnabled then
    some (if func.busMaster && decide (msiId < pciMsixMaxIrqs) then
        if !func.msixMasked && !(func.msix (msiId * 4 + 3)).getLsbD 0 then
          bus.sendMsi (func.msix (msiId * 4)) (func.msix (msiId * 4 + 1)) (func.msix (msiId * 4 + 2))
        else
          let reg := pciMsixTblSize + msiId / 32
          bus.setFunc addr (func.setMsix reg (func.msix reg ||| (1#32 <<< (msiId % 32))))
      else bus)
  else none

def pciFuncLowerMsixIrq (bus : PciBus σ) (addr : Nat) (func : PciFunc) (msiId : Nat) : Option (PciBus σ) :=
  if func.msixEnabled then
    some (if msiId < pciMsixMaxIrqs then
        let reg := pciMsixTblSize + msiId / 32
        bus.setFunc addr (func.setMsix reg (func.msix reg &&& ~~~ (1#32 <<< (msiId % 32))))
      else bus)
  else none

/-- Sends the pending message once its vector is unmasked. -/
def pciFuncUpdateMsiMask (bus : PciBus σ) (addr : Nat) (func : PciFunc) : PciBus σ :=
  let cleared := { func with msiPending := func.msiPending &&& func.msiMask }
  let bus := bus.setFunc addr cleared
  if func.msiPending ≠ 0 then (pciFuncSendMsiIrq bus addr cleared).getD bus else bus

/-- Sends what is pending once the vectors are unmasked; one register holds all pending bits. -/
def pciFuncUpdateMsixMask (bus : PciBus σ) (addr : Nat) (func : PciFunc) : PciBus σ :=
  if func.msixControl = 0x80000000 then
    let pending := func.msix pciMsixTblSize
    if pending ≠ 0 then
      let cleared := func.setMsix pciMsixTblSize 0
      (List.range 32).foldl (fun bus bit =>
          if pending.getLsbD bit then
            match bus.funcs addr with
            | some func => (pciFuncSendMsixIrq bus addr func bit).getD bus
            | none => bus
          else bus)
        (bus.setFunc addr cleared)
    else bus
  else bus

/-- `pci_msix_bar_write`: unmasking a vector sends what is pending. -/
def pciMsixBarWrite (bus : PciBus σ) (addr : Nat) (func : PciFunc) (reg : Nat) (val : Reg) : PciBus σ :=
  let written := func.setMsix reg val
  let bus := bus.setFunc addr written
  if reg < pciMsixTblSize ∧ reg % 4 = 3 ∧ val.getLsbD 0 = false ∧ (func.msix reg).getLsbD 0 = true then
    pciFuncUpdateMsixMask bus addr written
  else bus

/-! What device models call. -/

def pciSendIrq (bus : PciBus σ) (addr msiId : Nat) : PciBus σ :=
  match bus.funcs addr with
  | none => bus
  | some func =>
    ((pciFuncSendMsixIrq bus addr func msiId).orElse fun _ => pciFuncSendMsiIrq bus addr func).getD
      (pciFuncSendIntxIrq ctrl bus addr func false)

def pciRaiseIrq (bus : PciBus σ) (addr msiId : Nat) : PciBus σ :=
  match bus.funcs addr with
  | none => bus
  | some func =>
    ((pciFuncSendMsixIrq bus addr func msiId).orElse fun _ => pciFuncSendMsiIrq bus addr func).getD
      (pciFuncSendIntxIrq ctrl bus addr func true)

def pciLowerIrq (bus : PciBus σ) (addr msiId : Nat) : PciBus σ :=
  match bus.funcs addr with
  | none => bus
  | some func =>
    ((pciFuncLowerMsixIrq bus addr func msiId).orElse fun _ => pciFuncLowerMsiIrq bus addr func).getD
      (pciFuncLowerIntxIrq ctrl bus addr func)

def pciWriteStatusCmd (bus : PciBus σ) (addr : Nat) (func : PciFunc) (val : Reg) : PciBus σ :=
  let written := { func with command := val &&& pciCmdMask }
  let bus := bus.setFunc addr written
  if !func.intxDisabled && val.getLsbD pciCmdIntxDisable then pciFuncLowerIntxIrq ctrl bus addr written
  else bus

/-- `pci_bus_write`: the function is selected by the page of the offset. -/
def pciBusWrite (bus : PciBus σ) (offset : Nat) (val : Reg) : PciBus σ :=
  let addr := offset / 0x1000
  match bus.funcs addr with
  | none => bus
  | some func =>
    match offset % 0x1000 / 4 * 4 with
    | 0x04 => pciWriteStatusCmd ctrl bus addr func val
    | 0x3C => bus.setFunc addr { func with irqLine := val &&& 0xFF }
    | 0x84 => bus.setFunc addr { func with pmCsr := val &&& 0x03 }
    | 0x90 => bus.setFunc addr { func with msiControl := val &&& 0x00010000 }
    | 0x94 => bus.setFunc addr { func with msiAddrLow := val }
    | 0x98 => bus.setFunc addr { func with msiAddrHigh := val }
    | 0x9C => bus.setFunc addr { func with msiData := val &&& 0x0000FFFF }
    | 0xA0 => pciFuncUpdateMsiMask bus addr { func with msiMask := val &&& 0x00000001 }
    | 0xB0 =>
      let written := { func with msixControl := val &&& 0xC0000000 }
      let bus := bus.setFunc addr written
      if func.msixMasked && !val.getLsbD 30 then pciFuncUpdateMsixMask bus addr written else bus
    | _ => bus

/-- A function as `pci_attach_func_internal` sets it up. -/
def pciAttachFunc (irqs : Fin 4 → Nat) (addr irqPin : Nat) : PciFunc where
  irqPin := irqPin
  command := 0x0007
  status := 0
  irqLine := BitVec.ofNat 32 (irqs (pciIntxLine addr irqPin))
  pmCsr := 0
  msiControl := 0
  msiAddrLow := 0
  msiAddrHigh := 0
  msiData := 0
  msiMask := 0
  msiPending := 0
  msixControl := 0
  msix := fun _ => 0

end Rvvm.Pci
