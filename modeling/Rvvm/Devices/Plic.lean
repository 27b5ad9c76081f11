import Rvvm.Library.Runs
import Rvvm.Library.BitWords

/-! The platform-level interrupt controller: registers, the incremental upkeep of
each context's external-interrupt line, and the guest-visible MMIO window. -/
namespace Rvvm.Plic
open BitWords
open Function (update)

def plicSrcLimit : Nat := 64
def plicSrcRegs : Nat := 2

/-- `plic_dev_t`, with `pending_irqs` of every hart it drives. -/
structure PlicDev where
  harts : Nat
  prio : Nat → BitVec 32
  pending : Words
  raised : Words
  enable : Nat → Words
  threshold : Nat → BitVec 32
  pendingIrqs : Nat → BitVec 32

def plicCtxPrio (ctx : Nat) : Nat := if ctx % 2 = 1 then 0x9 else 0xB

def plicCtxHartid (ctx : Nat) : Nat := ctx / 2

def plicCtxCount (s : PlicDev) : Nat := s.harts * 2

def plicIrqPending (s : PlicDev) (irq : Nat) : Bool := test s.pending irq

def plicIrqEnabled (s : PlicDev) (ctx irq : Nat) : Bool := test (s.enable ctx) irq

def riscvInterrupt (s : PlicDev) (ctx : Nat) : PlicDev :=
  { s with
    pendingIrqs := update s.pendingIrqs (plicCtxHartid ctx)
      (s.pendingIrqs (plicCtxHartid ctx) ||| mask (plicCtxPrio ctx)) }

def riscvInterruptClear (s : PlicDev) (ctx : Nat) : PlicDev :=
  { s with
    pendingIrqs := update s.pendingIrqs (plicCtxHartid ctx)
      (s.pendingIrqs (plicCtxHartid ctx) &&& ~~~ mask (plicCtxPrio ctx)) }

def plicNotifyCtxIrq (s : PlicDev) (ctx irq : Nat) : Bool × PlicDev :=
  if !plicIrqEnabled s ctx irq then (false, s)
  else if s.prio irq ≤ s.threshold ctx then (false, s)
  else (true, riscvInterrupt s ctx)

/-- Only the first context that accepts the interrupt is notified. -/
def plicNotifyIrq (s : PlicDev) (irq : Nat) : PlicDev :=
  match (List.range (plicCtxCount s)).find? fun ctx => (plicNotifyCtxIrq s ctx irq).1 with
  | some ctx => (plicNotifyCtxIrq s ctx irq).2
  | none => s

def plicUpdateCtxIrqReg (s : PlicDev) (ctx reg : Nat) : PlicDev :=
  (bits (s.pending reg &&& s.enable ctx reg)).foldl
    (fun s bit => plicNotifyIrq s (reg * 32 + bit)) s

/-- Locals of the scan loop of `plic_update_ctx`. -/
structure PlicScan where
  signals : Nat
  maxIrq : Nat
  maxPrio : BitVec 32

def plicScanIrq (s : PlicDev) (ctx : Nat) (acc : PlicScan) (irq : Nat) : PlicScan where
  signals := if s.threshold ctx < s.prio irq then acc.signals + 1 else acc.signals
  maxIrq := if acc.maxPrio < s.prio irq then irq else acc.maxIrq
  maxPrio := if acc.maxPrio < s.prio irq then s.prio irq else acc.maxPrio

/-- The interrupts the scan of a context visits, in order. -/
def plicCtxIrqs (s : PlicDev) (ctx : Nat) : List Nat :=
  (List.range plicSrcRegs).flatMap fun reg =>
    (bits (s.pending reg &&& s.enable ctx reg)).map fun bit => reg * 32 + bit

def plicScan (s : PlicDev) (ctx : Nat) : PlicScan :=
  (plicCtxIrqs s ctx).foldl (plicScanIrq s ctx) ⟨0, 0, 0⟩

def plicUpdateCtx (s : PlicDev) (ctx : Nat) (claim : Bool) : Nat × PlicDev :=
  let scan := plicScan s ctx
  let signals := if claim && decide (s.threshold ctx < scan.maxPrio) then scan.signals - 1
    else scan.signals
  let s := riscvInterruptClear s ctx
  (scan.maxIrq, if signals = 0 then s else riscvInterrupt s ctx)

def plicFullUpdate (s : PlicDev) : PlicDev :=
  (List.range (plicCtxCount s)).foldl (fun s ctx => (plicUpdateCtx s ctx false).2) s

def plicSetIrqPrio (s : PlicDev) (irq : Nat) (prio : BitVec 32) : PlicDev :=
  if irq ≠ 0 ∧ irq < plicSrcLimit then
    let oldPrio := s.prio irq
    let s := { s with prio := update s.prio irq prio }
    if prio < oldPrio then
      if plicIrqPending s irq then plicFullUpdate s else s
    else if oldPrio < prio ∧ plicIrqPending s irq then plicNotifyIrq s irq
    else s
  else s

def plicSetEnableBits (s : PlicDev) (ctx reg : Nat) (enable : BitVec 32) : PlicDev :=
  if ctx < plicCtxCount s ∧ reg < plicSrcRegs then
    let oldEnable := s.enable ctx reg
    let irqsDisabled := oldEnable &&& ~~~ enable
    let s := { s with
      enable := update s.enable ctx (update (s.enable ctx) reg enable) }
    if irqsDisabled ≠ 0 then
      if irqsDisabled &&& s.pending reg ≠ 0 then plicFullUpdate s else s
    else if enable &&& ~~~ oldEnable ≠ 0 then plicUpdateCtxIrqReg s ctx reg
    else s
  else s

def plicSetCtxThreshold (s : PlicDev) (ctx : Nat) (threshold : BitVec 32) : PlicDev :=
  if ctx < plicCtxCount s then
    let oldThreshold := s.threshold ctx
    let s := { s with threshold := update s.threshold ctx threshold }
    if oldThreshold ≠ threshold then (plicUpdateCtx s ctx false).2 else s
  else s

/-- The source retries while the pending bit it found was taken by another hart in
between; with one operation at a time the bit is still set and the body runs once
(`plicScan_maxIrq_pending`). -/
def plicClaimIrq (s : PlicDev) (ctx : Nat) : Nat × PlicDev :=
  if ctx < plicCtxCount s then
    let (irq, s) := plicUpdateCtx s ctx true
    if irq ≠ 0 then (irq, { s with pending := clear s.pending irq }) else (0, s)
  else (0, s)

def plicCompleteIrq (s : PlicDev) (ctx irq : Nat) : PlicDev :=
  if ctx < plicCtxCount s ∧ irq < plicSrcLimit then
    if test s.raised irq then
      (plicNotifyCtxIrq { s with pending := set s.pending irq } ctx irq).2
    else s
  else s

def plicSetIrq (s : PlicDev) (irq : Nat) (lvl : Bool) : PlicDev :=
  if 0 < irq ∧ irq < plicSrcLimit then
    if lvl then
      if test s.raised irq then s
      else
        let pend := test s.pending irq
        let s := { s with raised := set s.raised irq, pending := set s.pending irq }
        if pend then s else plicNotifyIrq s irq
    else { s with raised := clear s.raised irq }
  else s

def u32 (n : Nat) : Nat := n % 2 ^ 32

/-- What an offset of the MMIO window selects; `claim` is also the completion register. -/
inductive PlicReg where
  | threshold (ctx : Nat)
  | claim (ctx : Nat)
  | unmapped
  | enable (ctx reg : Nat)
  | source (off : Nat)

/-- The offset decoding both MMIO handlers share. -/
def plicReg (off : Nat) : PlicReg :=
  if 0x200000 ≤ off then
    let ctx := u32 ((off - 0x200000) >>> 12)
    let reg := (off - 0x200000) % 0x1000
    if reg = 0x00 then .threshold ctx else if reg = 0x04 then .claim ctx else .unmapped
  else if 0x2000 ≤ off then
    .enable (u32 ((off - 0x2000) >>> 7)) (((off - 0x2000) >>> 2) % 0x20)
  else .source off

/-- Pending words from `0x1000`, priorities below. -/
def plicReadSource (s : PlicDev) (off : Nat) : BitVec 32 :=
  if 0x1000 ≤ off then
    let reg := (off - 0x1000) >>> 2
    if reg < plicSrcRegs then s.pending reg else 0
  else
    let irq := off >>> 2
    if irq ≠ 0 ∧ irq < plicSrcLimit then s.prio irq else 0

def plicMmioRead (s : PlicDev) (off : Nat) : BitVec 32 × PlicDev :=
  match plicReg off with
  | .threshold ctx => (if ctx < plicCtxCount s then s.threshold ctx else 0, s)
  | .claim ctx => (BitVec.ofNat 32 (plicClaimIrq s ctx).1, (plicClaimIrq s ctx).2)
  | .unmapped => (0, s)
  | .enable ctx reg =>
    (if reg < plicSrcRegs ∧ ctx < plicCtxCount s then s.enable ctx reg else 0, s)
  | .source off => (plicReadSource s off, s)

def plicMmioWrite (s : PlicDev) (off : Nat) (val : BitVec 32) : PlicDev :=
  match plicReg off with
  | .threshold ctx => plicSetCtxThreshold s ctx val
  | .claim ctx => plicCompleteIrq s ctx val.toNat
  | .unmapped => s
  | .enable ctx reg => plicSetEnableBits s ctx reg val
  | .source off => plicSetIrqPrio s (off >>> 2) val

inductive PlicOp where
  | mmioRead (off : Nat)
  | mmioWrite (off : Nat) (val : BitVec 32)
  | setIrq (irq : Nat) (lvl : Bool)

def plicStep (s : PlicDev) : PlicOp → PlicDev
  | .mmioRead off => (plicMmioRead s off).2
  | .mmioWrite off val => plicMmioWrite s off val
  | .setIrq irq lvl => plicSetIrq s irq lvl

/-- `rvvm_riscv_plic_init`: all registers zero, no line asserted. -/
def plicInit (harts : Nat) : PlicDev where
  harts
  prio := fun _ => 0
  pending := fun _ => 0
  raised := fun _ => 0
  enable := fun _ _ => 0
  threshold := fun _ => 0
  pendingIrqs := fun _ => 0

end Rvvm.Plic
