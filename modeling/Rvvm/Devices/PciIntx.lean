import Rvvm.Devices.Pci
import Rvvm.Devices.PlicDelivery

/-! The shared INTx lines. A function records its own interrupt, but lowers the line for every
function that shares it, and takes no notice of its interrupt when INTx is enabled again. -/
namespace Rvvm.Pci
open Option Runs
open Function (update update_of_ne update_self)

/-- A bus with, for every function, whether it was raised and not lowered since. -/
structure PciRun (σ : Type) where
  bus : PciBus σ
  raised : Nat → Bool

inductive PciEvent
  | raiseIrq (addr msiId : Nat)
  | lowerIrq (addr msiId : Nat)
  | writeStatusCmd (addr : Nat) (val : Reg)

variable {σ : Type} (ctrl : Intc σ)

def pciStep (s : PciRun σ) : PciEvent → PciRun σ
  | .raiseIrq addr msiId => ⟨pciRaiseIrq ctrl s.bus addr msiId, update s.raised addr true⟩
  | .lowerIrq addr msiId => ⟨pciLowerIrq ctrl s.bus addr msiId, update s.raised addr false⟩
  | .writeStatusCmd addr val => ⟨pciBusWrite ctrl s.bus (addr * 0x1000 + 0x04) val, s.raised⟩

/-- A function that holds a line: it has a pin, was raised and not lowered since, and INTx is not
disabled. -/
def Active (s : PciRun σ) (addr : Nat) (line : Fin 4) : Prop :=
  ∃ func, s.bus.funcs addr = some func ∧ func.irqPin ≠ 0 ∧ pciIntxLine addr func.irqPin = line ∧
    s.raised addr = true ∧ func.intxDisabled = false

def IntxRight (s : PciRun σ) : Prop :=
  ∀ line, ctrl.level s.bus.intc (s.bus.irqs line) = true ↔ ∃ addr, Active s addr line

/-- Four different lines of the controller, and functions that use them. -/
structure Wired (s : PciRun σ) : Prop where
  distinct : Function.Injective s.bus.irqs
  valid : ∀ line, ctrl.valid (s.bus.irqs line)
  messages : ∀ addr func, s.bus.funcs addr = some func → func.msiEnabled = false ∧ func.msixEnabled = false

/-- Another function holds the line. -/
def Others (s : PciRun σ) (addr : Nat) (line : Fin 4) : Prop := ∃ other, other ≠ addr ∧ Active s other line

/-- No function loses its line to another that is lowered or disabled, and none is enabled while
it is raised, unless the line is held anyway. -/
def IntxOk (s : PciRun σ) : PciEvent → Prop
  | .raiseIrq _ _ => True
  | .lowerIrq addr _ => ∀ func, s.bus.funcs addr = some func → ¬ Others s addr (pciIntxLine addr func.irqPin)
  | .writeStatusCmd addr val => ∀ func, s.bus.funcs addr = some func →
      (func.intxDisabled = false → val.getLsbD pciCmdIntxDisable = true →
        ¬ Others s addr (pciIntxLine addr func.irqPin)) ∧
      (func.intxDisabled = true → val.getLsbD pciCmdIntxDisable = false → func.irqPin ≠ 0 →
        s.raised addr = true → Others s addr (pciIntxLine addr func.irqPin))

section Local
variable {s s' : PciRun σ} {addr : Nat} {own : Fin 4}

/-- A step of one function leaves the others as they are. -/
structure OnlyAt (s s' : PciRun σ) (addr : Nat) : Prop where
  irqs : s'.bus.irqs = s.bus.irqs
  funcs : ∀ other, other ≠ addr → s'.bus.funcs other = s.bus.funcs other
  raised : ∀ other, other ≠ addr → s'.raised other = s.raised other

theorem OnlyAt.others (only : OnlyAt s s' addr) (line : Fin 4) : Others s' addr line ↔ Others s addr line := by
  refine exists_congr fun other => and_congr_right fun apart => ?_
  unfold Active
  rw [only.funcs other apart, only.raised other apart]

theorem exists_active_iff (s : PciRun σ) (addr : Nat) (line : Fin 4) :
    (∃ a, Active s a line) ↔ Active s addr line ∨ Others s addr line := by
  constructor
  · rintro ⟨a, active⟩
    by_cases same : a = addr
    · exact .inl (same ▸ active)
    · exact .inr ⟨a, same, active⟩
  · rintro (active | ⟨a, -, active⟩)
    · exact ⟨addr, active⟩
    · exact ⟨a, active⟩

theorem intxRight_iff (only : OnlyAt s s' addr) (right : IntxRight ctrl s)
    (levels : ∀ line, line ≠ own → ctrl.level s'.bus.intc (s.bus.irqs line)
      = ctrl.level s.bus.intc (s.bus.irqs line))
    (before : ∀ line, Active s addr line → line = own) (after : ∀ line, Active s' addr line → line = own) :
    IntxRight ctrl s' ↔
      (ctrl.level s'.bus.intc (s.bus.irqs own) = true ↔ Active s' addr own ∨ Others s addr own) := by
  unfold IntxRight
  rw [only.irqs]
  constructor
  · intro all
    rw [all own, exists_active_iff s' addr, only.others]
  · intro here line
    rw [exists_active_iff s' addr, only.others]
    by_cases mine : line = own
    · rw [mine]
      exact here
    · rw [levels line mine, right line, exists_active_iff s addr]
      exact or_congr_left (iff_of_false (fun active => mine (before line active))
        (fun active => mine (after line active)))

end Local

theorem PciBus.setFunc_self (bus : PciBus σ) {addr : Nat} {func : PciFunc}
    (attached : bus.funcs addr = some func) : bus.setFunc addr func = bus := by
  rw [PciBus.setFunc, ← attached, Function.update_eq_self]

section Steps
variable {s : PciRun σ} (wired : Wired ctrl s) {addr : Nat} {func : PciFunc}

theorem Active.line_eq {line : Fin 4} (attached : s.bus.funcs addr = some func)
    (active : Active s addr line) : line = pciIntxLine addr func.irqPin := by
  obtain ⟨here, found, -, own, -⟩ := active
  obtain rfl := some.inj (attached.symm.trans found)
  exact own.symm

theorem active_own_iff (attached : s.bus.funcs addr = some func) :
    Active s addr (pciIntxLine addr func.irqPin) ↔
      func.irqPin ≠ 0 ∧ s.raised addr = true ∧ func.intxDisabled = false := by
  constructor
  · rintro ⟨here, found, pin, -, raised, enabled⟩
    obtain rfl := some.inj (attached.symm.trans found)
    exact ⟨pin, raised, enabled⟩
  · rintro ⟨pin, raised, enabled⟩
    exact ⟨func, attached, pin, rfl, raised, enabled⟩

theorem not_active_of_unattached (missing : s.bus.funcs addr = none) (line : Fin 4) :
    ¬ Active s addr line := by
  rintro ⟨func, found, -⟩
  rw [missing] at found
  cases found

include wired

theorem pciRaiseIrq_eq (attached : s.bus.funcs addr = some func) (msiId : Nat) :
    pciRaiseIrq ctrl s.bus addr msiId = pciFuncSendIntxIrq ctrl s.bus addr func true := by
  obtain ⟨msi, msix⟩ := wired.messages addr func attached
  simp [pciRaiseIrq, attached, pciFuncSendMsixIrq, pciFuncSendMsiIrq, msi, msix]

theorem pciLowerIrq_eq (attached : s.bus.funcs addr = some func) (msiId : Nat) :
    pciLowerIrq ctrl s.bus addr msiId = pciFuncLowerIntxIrq ctrl s.bus addr func := by
  obtain ⟨msi, msix⟩ := wired.messages addr func attached
  simp [pciLowerIrq, attached, pciFuncLowerMsixIrq, pciFuncLowerMsiIrq, msi, msix]

omit wired in
theorem pciBusWrite_statusCmd (attached : s.bus.funcs addr = some func) (val : Reg) :
    pciBusWrite ctrl s.bus (addr * 0x1000 + 0x04) val = pciWriteStatusCmd ctrl s.bus addr func val := by
  have page : (addr * 0x1000 + 0x04) / 0x1000 = addr := by omega
  have reg : (addr * 0x1000 + 0x04) % 0x1000 / 4 * 4 = 0x04 := by omega
  unfold pciBusWrite
  rw [page, reg]
  dsimp only
  rw [attached]
  rfl

omit wired in
theorem unattached_write (missing : s.bus.funcs addr = none) (val : Reg) :
    pciBusWrite ctrl s.bus (addr * 0x1000 + 0x04) val = s.bus := by
  have page : (addr * 0x1000 + 0x04) / 0x1000 = addr := by omega
  simp [pciBusWrite, page, missing]

theorem level_setIrq_line (own line : Fin 4) (lvl : Bool) :
    ctrl.level (ctrl.setIrq s.bus.intc (s.bus.irqs own) lvl) (s.bus.irqs line) =
      if line = own then lvl else ctrl.level s.bus.intc (s.bus.irqs line) := by
  rw [ctrl.level_setIrq _ _ _ (wired.valid own), Function.update_apply]
  exact if_congr wired.distinct.eq_iff rfl rfl

omit wired in
theorem local_iff (right : IntxRight ctrl s)
    (attached : s.bus.funcs addr = some func) (func' : PciFunc) (intc : σ) (raised : Nat → Bool)
    (pin : func'.irqPin = func.irqPin) (others : ∀ other, other ≠ addr → raised other = s.raised other)
    (levels : ∀ line, line ≠ pciIntxLine addr func.irqPin →
      ctrl.level intc (s.bus.irqs line) = ctrl.level s.bus.intc (s.bus.irqs line)) :
    IntxRight ctrl ⟨{ s.bus.setFunc addr func' with intc := intc }, raised⟩ ↔
      (ctrl.level intc (s.bus.irqs (pciIntxLine addr func.irqPin)) = true ↔
        (func.irqPin ≠ 0 ∧ raised addr = true ∧ func'.intxDisabled = false) ∨
          Others s addr (pciIntxLine addr func.irqPin)) := by
  let s' : PciRun σ := ⟨{ s.bus.setFunc addr func' with intc := intc }, raised⟩
  have attached' : s'.bus.funcs addr = some func' := update_self ..
  have only : OnlyAt s s' addr := ⟨rfl, fun other apart => update_of_ne apart .., others⟩
  rw [intxRight_iff ctrl only right levels (fun line => Active.line_eq attached)
    (fun line active => pin ▸ active.line_eq attached'), ← pin, active_own_iff attached']

omit wired in
theorem own_level_iff (right : IntxRight ctrl s)
    (attached : s.bus.funcs addr = some func) :
    ctrl.level s.bus.intc (s.bus.irqs (pciIntxLine addr func.irqPin)) = true ↔
      (func.irqPin ≠ 0 ∧ s.raised addr = true ∧ func.intxDisabled = false) ∨
        Others s addr (pciIntxLine addr func.irqPin) := by
  rw [right, exists_active_iff s addr, active_own_iff attached]

omit wired in
theorem unattached_right {s' : PciRun σ} (right : IntxRight ctrl s)
    (missing : s.bus.funcs addr = none) (bus : s'.bus = s.bus)
    (raised : ∀ other, other ≠ addr → s'.raised other = s.raised other) : IntxRight ctrl s' := by
  have only : OnlyAt s s' addr := ⟨by rw [bus], fun other _ => by rw [bus], raised⟩
  intro line
  rw [exists_active_iff s' addr, only.others, bus, right line, exists_active_iff s addr]
  exact or_congr_left (iff_of_false (not_active_of_unattached missing line)
    (not_active_of_unattached (by rw [bus, missing]) line))

theorem raise_right (right : IntxRight ctrl s) (addr msiId : Nat) :
    IntxRight ctrl (pciStep ctrl s (.raiseIrq addr msiId)) := by
  have others (other : Nat) (apart : other ≠ addr) :
      (update s.raised addr true) other = s.raised other := update_of_ne apart _ _
  cases attached : s.bus.funcs addr with
  | none => exact unattached_right ctrl right attached (by simp [pciStep, pciRaiseIrq, attached]) others
  | some func =>
    rw [pciStep, pciRaiseIrq_eq ctrl wired attached, pciFuncSendIntxIrq]
    by_cases sends : (!func.intxDisabled && func.irqPin != 0) = true
    · rw [if_pos sends]
      refine (local_iff ctrl right attached { func with status := pciStatusIntx }
        (ctrl.raise s.bus.intc (pciFuncIntxIrq s.bus addr func)) _ rfl others ?_).mpr ?_
      · intro line apart
        exact (level_setIrq_line ctrl wired _ line true).trans (if_neg apart)
      · simp only [Bool.and_eq_true, Bool.not_eq_true', bne_iff_ne] at sends
        refine iff_of_true ((level_setIrq_line ctrl wired _ _ true).trans (if_pos rfl)) (.inl ?_)
        exact ⟨sends.2, update_self .., sends.1⟩
    · rw [if_neg sends, ← s.bus.setFunc_self attached]
      refine (local_iff ctrl right attached func s.bus.intc _ rfl others fun _ _ => rfl).mpr ?_
      rw [own_level_iff ctrl right attached]
      refine or_congr_left (iff_of_false ?_ ?_) <;>
      · rintro ⟨pin, -, enabled⟩
        simp [pin, enabled] at sends

theorem lower_right_iff (right : IntxRight ctrl s) (addr msiId : Nat) :
    IntxRight ctrl (pciStep ctrl s (.lowerIrq addr msiId)) ↔ IntxOk s (.lowerIrq addr msiId) := by
  have others (other : Nat) (apart : other ≠ addr) :
      (update s.raised addr false) other = s.raised other := update_of_ne apart _ _
  cases attached : s.bus.funcs addr with
  | none =>
    refine iff_of_true
      (unattached_right ctrl right attached (by simp [pciStep, pciLowerIrq, attached]) others) ?_
    intro func found
    rw [attached] at found
    cases found
  | some func =>
    rw [pciStep, pciLowerIrq_eq ctrl wired attached]
    refine (local_iff ctrl right attached { func with status := 0 } _ _ rfl others
      (fun line apart => (level_setIrq_line ctrl wired _ line false).trans (if_neg apart))).trans ?_
    rw [level_setIrq_line ctrl wired, update_self]
    simp [IntxOk, attached]

omit wired in
theorem written_intxDisabled (func : PciFunc) (val : Reg) :
    ({ func with command := val &&& pciCmdMask } : PciFunc).intxDisabled = val.getLsbD pciCmdIntxDisable := by
  have kept : pciCmdMask.getLsbD pciCmdIntxDisable = true := by decide
  rw [PciFunc.intxDisabled, BitVec.getLsbD_and, kept, Bool.and_true]

theorem write_right_iff (right : IntxRight ctrl s) (addr : Nat) (val : Reg) :
    IntxRight ctrl (pciStep ctrl s (.writeStatusCmd addr val)) ↔ IntxOk s (.writeStatusCmd addr val) := by
  cases attached : s.bus.funcs addr with
  | none =>
    refine iff_of_true
      (unattached_right ctrl right attached (by rw [pciStep, unattached_write ctrl attached]) fun _ _ => rfl) ?_
    intro func found
    rw [attached] at found
    cases found
  | some func =>
    have own := own_level_iff ctrl right attached
    have after := written_intxDisabled func val
    rw [pciStep, pciBusWrite_statusCmd ctrl attached, pciWriteStatusCmd]
    by_cases disables : (!func.intxDisabled && val.getLsbD pciCmdIntxDisable) = true
    · rw [if_pos disables, pciFuncLowerIntxIrq]
      simp only [Bool.and_eq_true, Bool.not_eq_true'] at disables
      have twice : ((s.bus.setFunc addr { func with command := val &&& pciCmdMask }).setFunc addr
          { func with command := val &&& pciCmdMask, status := 0 }) =
            s.bus.setFunc addr { func with command := val &&& pciCmdMask, status := 0 } := by
        simp [PciBus.setFunc]
      rw [twice]
      refine (local_iff ctrl right attached { func with command := val &&& pciCmdMask, status := 0 } _ _ rfl
        (fun _ _ => rfl) (fun line apart => (level_setIrq_line ctrl wired _ line false).trans (if_neg apart))).trans ?_
      have disabled : ({ func with command := val &&& pciCmdMask, status := 0 } : PciFunc).intxDisabled = true :=
        after.trans disables.2
      have lowered := level_setIrq_line ctrl wired (pciIntxLine addr func.irqPin)
        (pciIntxLine addr func.irqPin) false
      rw [disabled]
      simp [lowered, IntxOk, attached, disables]
    · rw [if_neg disables]
      refine (local_iff ctrl right attached { func with command := val &&& pciCmdMask } s.bus.intc s.raised rfl
        (fun _ _ => rfl) (fun _ _ => rfl)).trans ?_
      rw [own, after]
      simp only [IntxOk, attached, some.injEq, forall_eq']
      cases before : func.intxDisabled with
      | false =>
        have stays : val.getLsbD pciCmdIntxDisable = false := by simpa [before] using disables
        simp [stays]
      | true =>
        cases val.getLsbD pciCmdIntxDisable with
        | false =>
          tauto
        | true => simp

end Steps

variable {s : PciRun σ}

theorem intxRight_step_iff (event : PciEvent) (wired : Wired ctrl s) (right : IntxRight ctrl s) :
    IntxRight ctrl (pciStep ctrl s event) ↔ IntxOk s event := by
  cases event with
  | raiseIrq addr msiId => exact iff_of_true (raise_right ctrl wired right addr msiId) trivial
  | lowerIrq addr msiId => exact lower_right_iff ctrl wired right addr msiId
  | writeStatusCmd addr val => exact write_right_iff ctrl wired right addr val

theorem Wired.setFunc (wired : Wired ctrl s) (addr : Nat) (func : PciFunc)
    (off : func.msiEnabled = false ∧ func.msixEnabled = false) (intc : σ) (raised : Nat → Bool) :
    Wired ctrl ⟨{ s.bus.setFunc addr func with intc := intc }, raised⟩ where
  distinct := wired.distinct
  valid := wired.valid
  messages := by
    intro other here found
    change update s.bus.funcs addr (some func) other = some here at found
    by_cases same : other = addr
    · rw [same, update_self] at found
      obtain rfl := some.inj found
      exact off
    · rw [update_of_ne same] at found
      exact wired.messages other here found

theorem wired_step (event : PciEvent) (wired : Wired ctrl s) :
    Wired ctrl (pciStep ctrl s event) := by
  cases event with
  | raiseIrq addr msiId =>
    cases attached : s.bus.funcs addr with
    | none =>
      rw [pciStep, pciRaiseIrq, attached]
      exact ⟨wired.distinct, wired.valid, wired.messages⟩
    | some func =>
      rw [pciStep, pciRaiseIrq_eq ctrl wired attached, pciFuncSendIntxIrq]
      split
      · exact wired.setFunc ctrl addr { func with status := pciStatusIntx }
          (wired.messages addr func attached) _ _
      · exact ⟨wired.distinct, wired.valid, wired.messages⟩
  | lowerIrq addr msiId =>
    cases attached : s.bus.funcs addr with
    | none =>
      rw [pciStep, pciLowerIrq, attached]
      exact ⟨wired.distinct, wired.valid, wired.messages⟩
    | some func =>
      rw [pciStep, pciLowerIrq_eq ctrl wired attached]
      exact wired.setFunc ctrl addr { func with status := 0 } (wired.messages addr func attached) _ _
  | writeStatusCmd addr val =>
    cases attached : s.bus.funcs addr with
    | none =>
      rw [pciStep, unattached_write ctrl attached]
      exact wired
    | some func =>
      have off := wired.messages addr func attached
      have written := wired.setFunc ctrl addr
        { func with command := val &&& pciCmdMask } off s.bus.intc s.raised
      rw [pciStep, pciBusWrite_statusCmd ctrl attached, pciWriteStatusCmd]
      split
      · exact written.setFunc ctrl addr { func with command := val &&& pciCmdMask, status := 0 } off _ _
      · exact written

/-- The four lines are right in every state of a run exactly when every step spares the lines
that others hold and enables no function behind its back. -/
theorem intx_lines_iff {s : PciRun σ} (wired : Wired ctrl s) (start : IntxRight ctrl s) (events : List PciEvent) :
    (∀ t ∈ visited (pciStep ctrl) s events, IntxRight ctrl t) ↔ AllSteps (pciStep ctrl) IntxOk s events :=
  invariant_iff (fun _ event => wired_step ctrl event) (fun _ event => intxRight_step_iff ctrl event) events
    wired start

theorem test_plicSetIrq (s : Plic.PlicDev) (irq : Nat) (lvl : Bool) (valid : 0 < irq ∧ irq < Plic.plicSrcLimit) :
    BitWords.test (Plic.plicSetIrq s irq lvl).raised = Function.update (BitWords.test s.raised) irq lvl := by
  funext other
  rw [Function.update_apply]
  unfold Plic.plicSetIrq
  rw [if_pos valid]
  cases lvl with
  | false =>
    rw [if_neg nofun, BitWords.test_clear]
    by_cases same : other = irq <;> simp [same]
  | true =>
    rw [if_pos rfl]
    by_cases already : BitWords.test s.raised irq = true
    · rw [if_pos already]
      by_cases same : other = irq <;> simp [same, already]
    · rw [if_neg already]
      have raised : BitWords.test (BitWords.set s.raised irq) other =
          if other = irq then true else BitWords.test s.raised other := by
        rw [BitWords.test_set]
        by_cases same : other = irq <;> simp [same]
      dsimp only
      split
      · exact raised
      · rw [(Plic.plicNotifyIrq_raises _ irq).regs.raised]
        exact raised

def plicIntc : Intc Plic.PlicDev where
  setIrq := Plic.plicSetIrq
  level := fun s irq => BitWords.test s.raised irq
  valid := fun irq => 0 < irq ∧ irq < Plic.plicSrcLimit
  level_setIrq := test_plicSetIrq

def twoFuncs : PciRun Plic.PlicDev where
  bus :=
    { funcs := fun addr =>
        if addr = 8 ∨ addr = 40 then some (pciAttachFunc (fun line => line.val + 1) addr 1) else none
      irqs := fun line => line.val + 1
      intc := Plic.plicInit 1
      sent := [] }
  raised := fun _ => false

theorem intx_lines_iff_twoFuncs :
    (Wired plicIntc twoFuncs ∧ IntxRight plicIntc twoFuncs) ∧
      ((∀ t ∈ visited (pciStep plicIntc) twoFuncs [.raiseIrq 8 0, .lowerIrq 8 0], IntxRight plicIntc t) ↔
        AllSteps (pciStep plicIntc) IntxOk twoFuncs [.raiseIrq 8 0, .lowerIrq 8 0]) := by
  have wired : Wired plicIntc twoFuncs := by
    refine ⟨?_, ?_, ?_⟩
    · intro a b same
      exact Fin.ext (Nat.succ.inj same)
    · intro line
      exact ⟨Nat.succ_pos _, lt_of_le_of_lt (Nat.succ_le_of_lt line.isLt) (by decide)⟩
    · intro addr func found
      change (if _ then _ else _) = _ at found
      split at found
      · obtain rfl := some.inj found
        exact ⟨BitVec.getLsbD_zero, BitVec.getLsbD_zero⟩
      · cases found
  have right : IntxRight plicIntc twoFuncs := by
    intro line
    refine iff_of_false (fun high => ?_) ?_
    · have low : BitWords.test (fun _ => 0#32) (line.val + 1) = false := by simp [BitWords.test]
      cases low.symm.trans high
    · rintro ⟨addr, func, -, -, -, raised, -⟩
      cases raised
  exact ⟨⟨wired, right⟩, intx_lines_iff plicIntc wired right _⟩

def neighbourLowered : PciRun Plic.PlicDev :=
  final (pciStep plicIntc) twoFuncs [.raiseIrq 8 0, .raiseIrq 40 0, .lowerIrq 40 0]

def enabledAgain : PciRun Plic.PlicDev :=
  final (pciStep plicIntc) twoFuncs [.raiseIrq 8 0, .writeStatusCmd 8 0x407, .writeStatusCmd 8 0x007]

/-- A function's line is dropped by its neighbour, and stays low when INTx is disabled and enabled
again. -/
theorem intx_line_dropped :
    (plicIntc.level neighbourLowered.bus.intc (neighbourLowered.bus.irqs 1) = false ∧
      Active neighbourLowered 8 1) ∧
    plicIntc.level enabledAgain.bus.intc (enabledAgain.bus.irqs 1) = false ∧ Active enabledAgain 8 1 :=
  ⟨⟨by decide +kernel, _, rfl, by decide, by decide, rfl, by decide⟩,
    by decide +kernel, _, rfl, by decide, by decide, rfl, by decide⟩

end Rvvm.Pci
