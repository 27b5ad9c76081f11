import Rvvm.Cpu.AiaScan
import Rvvm.Cpu.Trap
import Rvvm.Cpu.Csr

/-! When `riscv_handle_irqs` enters a handler, against the privileged specification: an interrupt
that is pending and enabled goes to the mode delegation gives it, machine mode first, and among
those of one mode the specification fixes an order. -/
namespace Rvvm
open BitVec List
open BitVec (ofNat)
open Function (update update_self)

variable {δ : Type}

/-- The interrupts by priority: external, software and timer of machine mode, then those of
supervisor mode. -/
def irqOrder : List Nat := [11, 3, 7, 9, 1, 5]

namespace Hart

def irqPending (vm : Hart δ) (irq : Nat) : Bool :=
  (vm.pendingIrqs.getLsbD irq || vm.csr.ip.getLsbD irq) && vm.csr.ie.getLsbD irq

def irqMode (vm : Hart δ) (irq : Nat) : Priv :=
  if (vm.csr.ideleg .machine).getLsbD irq then .supervisor else .machine

def irqFor (vm : Hart δ) (priv : Priv) (irq : Nat) : Bool := vm.irqPending irq && vm.irqMode irq == priv

/-- Interrupts of a mode are taken in less privileged modes, and in the mode itself if it
enables them. -/
def Accepts (vm : Hart δ) (priv : Priv) : Prop :=
  vm.privMode.code < priv.code ∨ (vm.privMode = priv ∧ vm.csr.status.getLsbD priv.code = true)

instance (vm : Hart δ) (priv : Priv) : Decidable (vm.Accepts priv) :=
  inferInstanceAs (Decidable (_ ∨ _))

def specIrqOf (vm : Hart δ) (priv : Priv) : Option (Priv × Nat) :=
  if vm.Accepts priv then (irqOrder.find? (vm.irqFor priv)).map fun irq => (priv, irq) else none

def specIrq (vm : Hart δ) : Option (Priv × Nat) :=
  (vm.specIrqOf .machine).or (vm.specIrqOf .supervisor)

end Hart

/-- A bit of the status register on entry to a handler: `xPP` holds the mode left, `xPIE` the
old `xIE`, and `xIE` is clear. -/
def entryStatusBit (old : BitVec 64) (left target : Priv) (i : Nat) : Bool :=
  match target with
  | .machine =>
    if i = 3 then false
    else if i = 7 then old.getLsbD 3
    else if i = 11 ∨ i = 12 then left.bits.getLsbD (i - 11)
    else old.getLsbD i
  | _ =>
    if i = 1 then false
    else if i = 5 then old.getLsbD 1
    else if i = 8 then left.bits.getLsbD 0
    else old.getLsbD i

def Csr.modeRv64 (csr : Csr) : Priv → Bool
  | .machine => csr.isa.getLsbD 63
  | .hypervisor | .supervisor => bitCheck csr.status 35
  | .user => bitCheck csr.status 33

structure Entered (vm vm' : Hart δ) (priv : Priv) (irq : Nat) : Prop where
  mode : vm'.privMode = priv
  width : vm'.rv64 = if vm.privMode = priv then vm.rv64 else vm'.csr.modeRv64 priv
  epc : vm'.csr.epc = update vm.csr.epc priv vm.pc
  cause : vm'.csr.cause = update vm.csr.cause priv (ofNat 64 irq ||| riscvCauseIrqMask vm')
  tval : vm'.csr.tval = update vm.csr.tval priv 0
  status : ∀ i < 64, vm'.csr.status.getLsbD i = entryStatusBit vm.csr.status vm.privMode priv i
  pc : vm'.pc = (vm.csr.tvec priv &&& ~~~ 3#64) +
    if vm.csr.tvec priv &&& 3#64 = 1#64 then ofNat 64 (4 * irq) else 0
  registers : vm'.registers = vm.registers

/-- The hart took what the specification takes, or nothing and changed nothing. -/
def IrqRight (vm vm' : Hart δ) : Prop :=
  match vm.specIrq with
  | none => vm' = vm
  | some (priv, irq) => Entered vm vm' priv irq

/-- What initialization and the masks of the control registers leave: only the six interrupts can
be enabled, delegation skips the hypervisor and ends in supervisor mode, and a trap vector has one
of the two modes. -/
structure IrqLegal (vm : Hart δ) : Prop where
  enabled : ∀ irq, vm.csr.ie.getLsbD irq = true → irq ∈ irqOrder
  hypervisor : vm.csr.ideleg .hypervisor = 0xFFFFFFFF#64
  supervisor : vm.csr.ideleg .supervisor = 0#64
  tvec : ∀ priv, (vm.csr.tvec priv).getLsbD 1 = false

/-- No interrupt of the mode that comes later in the order has a higher number than the first. -/
def Ordered (pending : Nat → Bool) : Prop :=
  pending 11 = true ∨
    (¬ (pending 3 = true ∧ (pending 5 = true ∨ pending 7 = true ∨ pending 9 = true)) ∧
      ¬ (pending 7 = true ∧ pending 9 = true) ∧
      ¬ (pending 1 = true ∧ pending 5 = true ∧ pending 7 = false ∧ pending 9 = false))

section Bits
variable {vm : Hart δ}

def irqsOf (vm : Hart δ) : Priv → BitVec 64
  | .machine => ((riscvInterruptsPending vm).setWidth 32).setWidth 64 &&& ~~~ vm.csr.ideleg .machine
  | _ => ((riscvInterruptsPending vm).setWidth 32).setWidth 64 &&& vm.csr.ideleg .machine

theorem irqPending_lt (legal : IrqLegal vm) {i : Nat} (pending : vm.irqPending i = true) : i < 32 := by
  rw [Hart.irqPending, Bool.and_eq_true] at pending
  have member := legal.enabled i pending.2
  simp only [irqOrder, mem_cons, not_mem_nil, or_false] at member
  omega

theorem getLsbD_pending (legal : IrqLegal vm) (i : Nat) :
    ((riscvInterruptsPending vm).setWidth 32).getLsbD i = vm.irqPending i := by
  have same : ((riscvInterruptsPending vm).setWidth 32).getLsbD i = (decide (i < 32) && vm.irqPending i) := by
    rw [Hart.irqPending, riscvInterruptsPending]
    by_cases small : i < 32
    · simp [small, show i < 64 by omega]
    · simp [small]
  rw [same]
  cases pending : vm.irqPending i with
  | false => rw [Bool.and_false]
  | true => simp [irqPending_lt legal pending]

theorem getLsbD_irqsOf (legal : IrqLegal vm) {priv : Priv} (known : priv = .machine ∨ priv = .supervisor)
    (i : Nat) : (irqsOf vm priv).getLsbD i = vm.irqFor priv i := by
  have word : (((riscvInterruptsPending vm).setWidth 32).setWidth 64).getLsbD i = vm.irqPending i := by
    rw [getLsbD_setWidth, getLsbD_pending legal]
    cases pending : vm.irqPending i with
    | false => rw [Bool.and_false]
    | true =>
      have small := irqPending_lt legal pending
      simp [show i < 64 by omega]
  rw [Hart.irqFor, Hart.irqMode]
  rcases known with rfl | rfl
  · rw [irqsOf, getLsbD_and, word, getLsbD_not]
    cases pending : vm.irqPending i with
    | false => simp
    | true =>
      have small := irqPending_lt legal pending
      cases (vm.csr.ideleg .machine).getLsbD i <;> simp [show i < 64 by omega]
  · rw [irqsOf, getLsbD_and, word]
    · cases (vm.csr.ideleg .machine).getLsbD i <;> simp
    · nofun

theorem eq_zero_iff_forall_getLsbD {w : Nat} (x : BitVec w) : x = 0#w ↔ ∀ i, x.getLsbD i = false := by
  constructor
  · rintro rfl i
    exact getLsbD_zero
  · intro clear
    apply eq_of_getLsbD_eq
    intro i _
    rw [clear i]
    exact getLsbD_zero.symm

theorem irqsOf_eq_zero_iff (legal : IrqLegal vm) {priv : Priv}
    (known : priv = .machine ∨ priv = .supervisor) :
    irqsOf vm priv = 0#64 ↔ ∀ irq, vm.irqFor priv irq = false := by
  rw [eq_zero_iff_forall_getLsbD]
  exact forall_congr' fun irq => by rw [getLsbD_irqsOf legal known]

theorem irqsOf_supervisor_narrow (vm : Hart δ) :
    irqsOf vm .supervisor &&& 0xFFFFFFFF#64 = irqsOf vm .supervisor := by
  rw [irqsOf, BitVec.and_assoc, BitVec.and_comm (vm.csr.ideleg .machine), ← BitVec.and_assoc]
  · congr 1
    apply eq_of_getLsbD_eq
    intro i below
    rw [getLsbD_and, getLsbD_setWidth]
    by_cases small : i < 32
    · have ones : ∀ i < 32, (0xFFFFFFFF#64).getLsbD i = true := by decide
      rw [ones i small, Bool.and_true]
    · simp [small]
  · nofun

theorem pending_eq_zero (legal : IrqLegal vm) (machine : irqsOf vm .machine = 0#64)
    (supervisor : irqsOf vm .supervisor = 0#64) : (riscvInterruptsPending vm).setWidth 32 = 0#32 := by
  rw [eq_zero_iff_forall_getLsbD]
  intro i
  rw [getLsbD_pending legal]
  have no_machine := (irqsOf_eq_zero_iff legal (.inl rfl)).mp machine i
  have no_supervisor := (irqsOf_eq_zero_iff legal (.inr rfl)).mp supervisor i
  rw [Hart.irqFor, Hart.irqMode] at no_machine no_supervisor
  revert no_machine no_supervisor
  cases vm.irqPending i <;> cases (vm.csr.ideleg .machine).getLsbD i <;> simp

theorem irqTarget_eq (legal : IrqLegal vm) (some_pending : (riscvInterruptsPending vm).setWidth 32 ≠ 0#32) :
    irqTarget vm.csr Priv.machine.code (((riscvInterruptsPending vm).setWidth 32).setWidth 64) =
      if irqsOf vm .machine ≠ 0#64 then (3, irqsOf vm .machine) else (1, irqsOf vm .supervisor) := by
  have from_machine : irqTarget vm.csr Priv.machine.code (((riscvInterruptsPending vm).setWidth 32).setWidth 64) =
      if irqsOf vm .machine ≠ 0#64 then (3, irqsOf vm .machine)
      else irqTarget vm.csr 2 (irqsOf vm .supervisor) := rfl
  rw [from_machine]
  by_cases machine : irqsOf vm .machine = 0#64
  · have rest : irqsOf vm .supervisor &&& ~~~ vm.csr.ideleg (.ofCode 2) = 0#64 := by
      have hypervisor : vm.csr.ideleg (.ofCode 2) = 0xFFFFFFFF#64 := legal.hypervisor
      rw [hypervisor, ← irqsOf_supervisor_narrow, BitVec.and_assoc]
      simp
    have passed : irqsOf vm .supervisor &&& vm.csr.ideleg (.ofCode 2) = irqsOf vm .supervisor := by
      have hypervisor : vm.csr.ideleg (.ofCode 2) = 0xFFFFFFFF#64 := legal.hypervisor
      rw [hypervisor, irqsOf_supervisor_narrow]
    have kept : irqsOf vm .supervisor &&& ~~~ vm.csr.ideleg (.ofCode 1) = irqsOf vm .supervisor := by
      have supervisor : vm.csr.ideleg (.ofCode 1) = 0#64 := legal.supervisor
      rw [supervisor, not_zero, and_allOnes]
    have nonzero : irqsOf vm .supervisor ≠ 0#64 := fun none_left =>
      some_pending (pending_eq_zero legal machine none_left)
    have second : irqTarget vm.csr 2 (irqsOf vm .supervisor) =
        irqTarget vm.csr 1 (irqsOf vm .supervisor &&& vm.csr.ideleg (.ofCode 2)) := if_neg (not_not.mpr rest)
    have third : irqTarget vm.csr 1 (irqsOf vm .supervisor) =
        (1, irqsOf vm .supervisor &&& ~~~ vm.csr.ideleg (.ofCode 1)) :=
      if_pos fun zero => nonzero (kept.symm.trans zero)
    rw [second, passed, third, kept]
  · rw [if_pos machine, if_pos machine]

end Bits

section Entry
variable {vm : Hart δ}

/-- The part of `riscv_handle_irqs` that enters the handler. -/
def takeIrq (vm : Hart δ) (priv : Priv) (irq : BitVec 64) : Hart δ :=
  let vm := riscvSwitchPriv (riscvTrapPrivHelper vm priv) priv
  let vm := vm.writeTrapInfo priv (irq ||| riscvCauseIrqMask vm) 0
  let base := vm.csr.tvec priv &&& ~~~ 3#64
  { vm with pc := if vm.csr.tvec priv &&& 1#64 ≠ 0 then base + (irq <<< 2) else base }

theorem getLsbD_bitCut_one (x : BitVec 64) (pos : Nat) (inside : pos < 64) :
    (bitCut x pos 1).getLsbD 0 = x.getLsbD pos := by
  rw [bitCut, bitExtU_eq _ (by omega)]
  simp

theorem getLsbD_bitReplace_one (val field : BitVec 64) (pos i : Nat) (below : i < 64) :
    (bitReplace val pos 1 field).getLsbD i = if i = pos then field.getLsbD 0 else val.getLsbD i := by
  rw [getLsbD_bitReplace _ _ _ _ _ below]
  by_cases here : i = pos
  · rw [if_pos (by omega), if_pos here, here, Nat.sub_self]
  · rw [if_neg (by omega), if_neg here]

variable {priv : Priv}

theorem riscvTrapPrivHelper_status (vm : Hart δ)
    (known : priv = .machine ∨ priv = .supervisor) (i : Nat) (below : i < 64) :
    (riscvTrapPrivHelper vm priv).csr.status.getLsbD i =
      entryStatusBit vm.csr.status vm.privMode priv i := by
  have off : (0 : BitVec 64).getLsbD 0 = false := rfl
  rcases known with rfl | rfl
  · have enable : (bitReplace vm.csr.status 11 2 vm.privMode.bits).getLsbD 3 = vm.csr.status.getLsbD 3 := by
      rw [getLsbD_bitReplace _ _ _ _ _ (by omega), if_neg (by omega)]
    have field : (11 ≤ i ∧ i < 11 + 2) ↔ (i = 11 ∨ i = 12) := by omega
    simp only [riscvTrapPrivHelper, Hart.setStatus, entryStatusBit]
    rw [getLsbD_bitReplace_one _ _ _ _ below, getLsbD_bitReplace_one _ _ _ _ below, off,
      getLsbD_bitCut_one _ 3 (by omega), enable, getLsbD_bitReplace _ _ _ _ _ below]
    simp [field]
  · have enable : (bitReplace vm.csr.status 8 1 vm.privMode.bits).getLsbD 1 = vm.csr.status.getLsbD 1 := by
      rw [getLsbD_bitReplace_one _ _ _ _ (by omega), if_neg (by omega)]
    simp only [riscvTrapPrivHelper, Hart.setStatus, entryStatusBit]
    rw [getLsbD_bitReplace_one _ _ _ _ below, getLsbD_bitReplace_one _ _ _ _ below, off,
      getLsbD_bitCut_one _ 1 (by omega), enable, getLsbD_bitReplace_one _ _ _ _ below]

theorem riscvSwitchPriv_rv64 (vm : Hart δ) (priv : Priv) :
    (riscvSwitchPriv vm priv).rv64 =
      if vm.privMode = priv then vm.rv64 else vm.csr.modeRv64 priv := by
  unfold riscvSwitchPriv
  by_cases same : vm.privMode = priv
  · rw [if_neg (not_not.mpr same), if_pos same]
  · rw [if_pos same, if_neg same]
    have width : (riscvUpdateXlen { vm with privMode := priv }).rv64 = vm.csr.modeRv64 priv := by
      unfold riscvUpdateXlen
      cases priv <;> dsimp only [Csr.modeRv64] <;> split_ifs with differs <;>
        first | rfl | exact not_not.mp differs
    exact width

theorem vectored_iff (tvec : BitVec 64) (legal : tvec.getLsbD 1 = false) :
    tvec &&& 1#64 ≠ 0 ↔ tvec &&& 3#64 = 1#64 := by
  have narrow : tvec &&& 3#64 = tvec &&& 1#64 := by
    apply eq_of_getLsbD_eq
    intro i below
    rw [getLsbD_and, getLsbD_and]
    by_cases one : i = 1
    · rw [one, legal]
      rfl
    · have same : ∀ i < 64, i ≠ 1 → (3#64).getLsbD i = (1#64).getLsbD i := by decide
      rw [same i below one]
  rw [narrow, and_one_eq_setWidth_ofBool_getLsbD]
  cases tvec.getLsbD 0 <;> decide

theorem takeIrq_entered (legal : IrqLegal vm)
    (known : priv = .machine ∨ priv = .supervisor) (irq : Nat) :
    Entered vm (takeIrq vm priv (ofNat 64 irq)) priv irq := by
  obtain ⟨status, helper⟩ := riscvTrapPrivHelper_eq vm priv
  have csr := riscvSwitchPriv_csr (riscvTrapPrivHelper vm priv) priv
  have data := riscvSwitchPriv_data (riscvTrapPrivHelper vm priv) priv
  have width := riscvSwitchPriv_rv64 (riscvTrapPrivHelper vm priv) priv
  have bits := riscvTrapPrivHelper_status vm known
  have mode := riscvSwitchPriv_priv (riscvTrapPrivHelper vm priv) priv
  unfold takeIrq
  rw [helper] at csr data width bits mode ⊢
  generalize riscvSwitchPriv (vm.setStatus status) priv = entered at *
  have jump : ofNat 64 irq <<< 2 = ofNat 64 (4 * irq) := by
    apply eq_of_toNat_eq
    rw [toNat_shiftLeft, toNat_ofNat, toNat_ofNat]
    omega
  refine ⟨mode, ?_, ?_, ?_, ?_, ?_, ?_, data.registers⟩
  · dsimp only [Hart.writeTrapInfo]
    rw [width, csr]
    rfl
  · dsimp only [Hart.writeTrapInfo]
    rw [csr, data.pc]
    rfl
  · have causes : entered.csr.cause = vm.csr.cause := by rw [csr]; rfl
    exact congrArg (update · priv (ofNat 64 irq ||| riscvCauseIrqMask entered)) causes
  · have tvals : entered.csr.tval = vm.csr.tval := by rw [csr]; rfl
    exact congrArg (update · priv 0) tvals
  · intro i below
    dsimp only [Hart.writeTrapInfo]
    rw [csr, ← bits i below]
  · have vector : entered.csr.tvec = vm.csr.tvec := by rw [csr]; rfl
    dsimp only [Hart.writeTrapInfo]
    rw [vector, jump]
    by_cases vectored : vm.csr.tvec priv &&& 3#64 = 1#64
    · rw [if_pos ((vectored_iff _ (legal.tvec priv)).mpr vectored), if_pos vectored]
    · rw [if_neg fun set => vectored ((vectored_iff _ (legal.tvec priv)).mp set), if_neg vectored]
      exact (BitVec.add_zero _).symm

theorem Entered.irq_unique {vm' : Hart δ} {irq irq' : Nat} (first : Entered vm vm' priv irq)
    (second : Entered vm vm' priv irq') (small : irq < 32) (small' : irq' < 32) : irq = irq' := by
  have same := congrFun (first.cause.symm.trans second.cause) priv
  rw [update_self, update_self] at same
  have low : ∀ n < 32, ((ofNat 64 n ||| riscvCauseIrqMask vm').setWidth 5).toNat = n := by
    intro n below
    have mask : (riscvCauseIrqMask vm').setWidth 5 = 0#5 := by
      unfold riscvCauseIrqMask
      split <;> rfl
    rw [setWidth_or, mask, or_zero, toNat_setWidth, toNat_ofNat]
    omega
  rw [← low irq small, same, low irq' small']

end Entry

section Choice

theorem topBit_eq_first_iff {pending : Nat → Bool} {word : BitVec 32}
    (bits : ∀ i, word.getLsbD i = pending i) (six : ∀ i, pending i = true → i ∈ irqOrder)
    (some_pending : word ≠ 0) :
    ∃ irq, irqOrder.find? pending = some irq ∧ irq < 32 ∧ (topBit word = irq ↔ Ordered pending) := by
  obtain ⟨below, set, above⟩ := topBit_spec word some_pending
  rw [bits] at set
  have higher : ∀ i, topBit word < i → pending i = false := fun i more => (bits i).symm.trans (above i more)
  have member := six _ set
  generalize topBit word = top at below set higher member ⊢
  simp only [irqOrder, mem_cons, not_mem_nil, or_false] at member
  unfold Ordered
  have h11 := higher 11
  have h9 := higher 9
  have h7 := higher 7
  have h5 := higher 5
  have h3 := higher 3
  rcases member with rfl | rfl | rfl | rfl | rfl | rfl
  · exact ⟨11, by simp [irqOrder, set], by omega, by simp [set]⟩
  · exact ⟨3, by simp [irqOrder, set, h11], by omega, by simp [set, h5, h7, h9]⟩
  · cases software : pending 3 with
    | true => exact ⟨3, by simp [irqOrder, software, h11], by omega, by simp [set, h11]⟩
    | false => exact ⟨7, by simp [irqOrder, set, software, h11], by omega, by simp [set, h9]⟩
  · cases software : pending 3 with
    | true => exact ⟨3, by simp [irqOrder, software, h11], by omega, by simp [set, h11]⟩
    | false =>
      cases timer : pending 7 with
      | true => exact ⟨7, by simp [irqOrder, software, timer, h11], by omega, by simp [set, h11]⟩
      | false =>
        exact ⟨9, by simp [irqOrder, set, software, timer, h11], by omega,
          by simp [set]⟩
  · exact ⟨1, by simp [irqOrder, set, h3, h7, h9, h11], by omega, by simp [h3, h5, h7]⟩
  · cases software : pending 3 with
    | true => exact ⟨3, by simp [irqOrder, software, h11], by omega, by simp [set, h11]⟩
    | false =>
      cases supervisor : pending 1 with
      | true =>
        exact ⟨1, by simp [irqOrder, software, supervisor, h7, h9, h11], by omega,
          by simp [set, h7, h9, h11]⟩
      | false =>
        exact ⟨5, by simp [irqOrder, set, software, supervisor, h7, h9, h11], by omega,
          by simp [h7]⟩

end Choice

section Handle
variable {vm : Hart δ} {priv : Priv}

theorem irqFor_mem (legal : IrqLegal vm) (i : Nat) (pending : vm.irqFor priv i = true) :
    i ∈ irqOrder := by
  rw [Hart.irqFor, Bool.and_eq_true, Hart.irqPending, Bool.and_eq_true] at pending
  exact legal.enabled i pending.1.2

theorem takeIrq_right_iff (legal : IrqLegal vm)
    (known : priv = .machine ∨ priv = .supervisor) (some_pending : irqsOf vm priv ≠ 0#64) :
    ∃ irq, irqOrder.find? (vm.irqFor priv) = some irq ∧
      (Entered vm (takeIrq vm priv (ofNat 64 (topBit ((irqsOf vm priv).setWidth 32)))) priv irq ↔
        Ordered (vm.irqFor priv)) := by
  have bits : ∀ i, ((irqsOf vm priv).setWidth 32).getLsbD i = vm.irqFor priv i := by
    intro i
    rw [getLsbD_setWidth, getLsbD_irqsOf legal known]
    cases pending : vm.irqFor priv i with
    | false => rw [Bool.and_false]
    | true =>
      rw [Hart.irqFor, Bool.and_eq_true] at pending
      simp [irqPending_lt legal pending.1]
  have nonzero : (irqsOf vm priv).setWidth 32 ≠ 0#32 := by
    intro zero
    apply some_pending
    rw [irqsOf_eq_zero_iff legal known]
    intro irq
    rw [← bits irq, zero, getLsbD_zero]
  obtain ⟨irq, first, small, ordered⟩ := topBit_eq_first_iff bits (irqFor_mem legal) nonzero
  refine ⟨irq, first, ?_⟩
  have taken := takeIrq_entered legal known (topBit ((irqsOf vm priv).setWidth 32))
  rw [← ordered]
  constructor
  · intro right
    exact taken.irq_unique right (topBit_spec _ nonzero).1 small
  · intro same
    rwa [same] at taken ⊢

theorem ite_accepts (vm taken : Hart δ) (priv : Priv) :
    (if priv.code < vm.privMode.code then vm
      else if vm.privMode = priv ∧ vm.csr.status.getLsbD vm.privMode.code = false then vm
      else taken) = if vm.Accepts priv then taken else vm := by
  by_cases accepts : vm.Accepts priv
  · rw [if_pos accepts]
    rcases accepts with below | ⟨same, enabled⟩
    · rw [if_neg (by omega), if_neg]
      rintro ⟨same, -⟩
      rw [same] at below
      omega
    · rw [if_neg (by rw [same]; omega), if_neg]
      rintro ⟨-, disabled⟩
      rw [same, enabled] at disabled
      cases disabled
  · rw [if_neg accepts]
    by_cases above : priv.code < vm.privMode.code
    · rw [if_pos above]
    · have same : vm.privMode = priv := by
        have codes : vm.privMode.code = priv.code := by
          have not_below : ¬ vm.privMode.code < priv.code := fun below => accepts (.inl below)
          omega
        rw [← Priv.ofCode_code vm.privMode, codes, Priv.ofCode_code]
      rw [if_neg above, if_pos]
      refine ⟨same, ?_⟩
      cases enabled : vm.csr.status.getLsbD vm.privMode.code with
      | false => rfl
      | true => exact absurd (.inr ⟨same, same ▸ enabled⟩) accepts

/-- What the code does, by the mode the pending interrupts belong to. -/
theorem riscvHandleIrqs_eq (legal : IrqLegal vm) :
    riscvHandleIrqs vm =
      if irqsOf vm .machine ≠ 0#64 then
        if vm.Accepts .machine then
          takeIrq vm .machine (ofNat 64 (topBit ((irqsOf vm .machine).setWidth 32)))
        else vm
      else if irqsOf vm .supervisor ≠ 0#64 then
        if vm.Accepts .supervisor then
          takeIrq vm .supervisor (ofNat 64 (topBit ((irqsOf vm .supervisor).setWidth 32)))
        else vm
      else vm := by
  unfold riscvHandleIrqs
  by_cases idle : (riscvInterruptsPending vm).setWidth 32 = 0#32
  · have machine : irqsOf vm .machine = 0#64 := by
      rw [irqsOf, idle]
      simp
    have supervisor : irqsOf vm .supervisor = 0#64 := by
      rw [irqsOf, idle]
      · simp
      · nofun
    rw [if_neg (not_not.mpr machine), if_neg (not_not.mpr supervisor)]
    exact if_pos idle
  · refine (if_neg idle).trans ?_
    rw [irqTarget_eq legal idle]
    by_cases machine : irqsOf vm .machine = 0#64
    · have supervisor : irqsOf vm .supervisor ≠ 0#64 := fun none_left =>
        idle (pending_eq_zero legal machine none_left)
      rw [if_neg (not_not.mpr machine), if_neg (not_not.mpr machine), if_pos supervisor]
      exact ite_accepts vm _ .supervisor
    · rw [if_pos machine, if_pos machine]
      exact ite_accepts vm _ .machine

theorem specIrqOf_eq_none (legal : IrqLegal vm)
    (known : priv = .machine ∨ priv = .supervisor) (nothing : irqsOf vm priv = 0#64) :
    vm.specIrqOf priv = none := by
  have none_pending := (irqsOf_eq_zero_iff legal known).mp nothing
  have not_found : irqOrder.find? (vm.irqFor priv) = none := by
    rw [find?_eq_none]
    intro irq _
    rw [none_pending irq]
    exact Bool.false_ne_true
  rw [Hart.specIrqOf, not_found]
  split <;> rfl

theorem right_iff_of_none (spec : vm.specIrq = none) :
    IrqRight vm vm ↔ ∀ priv irq, vm.specIrq = some (priv, irq) → Ordered (vm.irqFor priv) := by
  rw [IrqRight, spec]
  exact iff_of_true rfl nofun

theorem right_iff_of_some {vm' : Hart δ} {irq : Nat} (spec : vm.specIrq = some (priv, irq))
    (right : Entered vm vm' priv irq ↔ Ordered (vm.irqFor priv)) :
    IrqRight vm vm' ↔ ∀ priv irq, vm.specIrq = some (priv, irq) → Ordered (vm.irqFor priv) := by
  rw [IrqRight, spec]
  refine right.trans ⟨fun ordered priv' irq' eq => ?_, fun all => all priv irq rfl⟩
  cases eq
  exact ordered

theorem not_accepts_supervisor (refused : ¬ vm.Accepts .machine) : ¬ vm.Accepts .supervisor := by
  have here : vm.privMode = .machine := by
    cases mode : vm.privMode with
    | machine => rfl
    | _ => exact absurd (.inl (by rw [mode]; decide)) refused
  rintro (below | ⟨same, -⟩)
  · rw [here] at below
    exact absurd below (by decide)
  · rw [here] at same
    cases same

/-- The hart takes what the specification takes exactly when the interrupts pending for the mode
that takes one come in an order that their numbers agree with. -/
theorem irq_acceptance_iff (vm : Hart δ) (legal : IrqLegal vm) :
    IrqRight vm (riscvHandleIrqs vm) ↔
      ∀ priv irq, vm.specIrq = some (priv, irq) → Ordered (vm.irqFor priv) := by
  rw [riscvHandleIrqs_eq legal]
  by_cases machine : irqsOf vm .machine = 0#64
  · have none_machine := specIrqOf_eq_none legal (.inl rfl) machine
    rw [if_neg (not_not.mpr machine)]
    by_cases supervisor : irqsOf vm .supervisor = 0#64
    · rw [if_neg (not_not.mpr supervisor)]
      apply right_iff_of_none
      rw [Hart.specIrq, none_machine, specIrqOf_eq_none legal (.inr rfl) supervisor]
      rfl
    · rw [if_pos supervisor]
      obtain ⟨irq, first, right⟩ := takeIrq_right_iff legal (.inr rfl) supervisor
      by_cases accepts : vm.Accepts .supervisor
      · rw [if_pos accepts]
        refine right_iff_of_some ?_ right
        rw [Hart.specIrq, none_machine, Hart.specIrqOf, if_pos accepts, first]
        rfl
      · rw [if_neg accepts]
        apply right_iff_of_none
        rw [Hart.specIrq, none_machine, Hart.specIrqOf, if_neg accepts]
        rfl
  · rw [if_pos machine]
    obtain ⟨irq, first, right⟩ := takeIrq_right_iff legal (.inl rfl) machine
    by_cases accepts : vm.Accepts .machine
    · rw [if_pos accepts]
      refine right_iff_of_some ?_ right
      rw [Hart.specIrq, Hart.specIrqOf, if_pos accepts, first]
      rfl
    · rw [if_neg accepts]
      apply right_iff_of_none
      rw [Hart.specIrq, Hart.specIrqOf, if_neg accepts, Hart.specIrqOf, if_neg (not_accepts_supervisor accepts)]
      rfl

/-- A hart in user mode with all six interrupts enabled and these raised. -/
def raisedHart (irqs : BitVec 32) : Hart Unit :=
  let init := riscvHartInit .empty (fun _ => 0) [] () true false
  { init with privMode := .user, pendingIrqs := irqs, csr := { init.csr with ie := 0xAAA } }

theorem raisedHart_legal (irqs : BitVec 32) : IrqLegal (raisedHart irqs) where
  enabled := by
    intro irq enabled
    have below : irq < 64 := by
      by_contra beyond
      rw [getLsbD_of_ge _ _ (by omega)] at enabled
      cases enabled
    revert enabled
    have six : ∀ irq < 64, (0xAAA#64).getLsbD irq = true → irq ∈ irqOrder := by decide
    exact six irq below
  hypervisor := rfl
  supervisor := rfl
  tvec := fun _ => getLsbD_zero

theorem irq_acceptance_iff_raisedHart :
    IrqLegal (raisedHart 0x88) ∧
      (IrqRight (raisedHart 0x88) (riscvHandleIrqs (raisedHart 0x88)) ↔
        ∀ priv irq, (raisedHart 0x88).specIrq = some (priv, irq) → Ordered ((raisedHart 0x88).irqFor priv)) :=
  ⟨raisedHart_legal 0x88, irq_acceptance_iff (raisedHart 0x88) (raisedHart_legal 0x88)⟩

/-- A software and a timer interrupt of machine mode are pending: the software interrupt comes
first, the timer interrupt is taken. -/
theorem timer_before_software :
    (raisedHart 0x88).specIrq = some (.machine, 3) ∧
      (riscvHandleIrqs (raisedHart 0x88)).csr.cause .machine = 0x8000000000000007 := by
  decide +kernel

end Handle

end Rvvm
