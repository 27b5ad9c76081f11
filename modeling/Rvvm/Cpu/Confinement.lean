import Rvvm.Cpu.Outcome
import Rvvm.Library.Runs

/-! Below machine mode, loads and stores are checked with the privilege of the code that makes
them: `MPRV` is clear there, in every state a hart can reach. -/
namespace Rvvm
open Runs

variable {δ : Type}

/-! Runs of a hart. -/

structure Outside (δ : Type) where
  host : HostMem
  devices : δ
  pendingIrqs : BitVec 32
  timer : BitVec 64

/-- The parts of `riscv_hart_run`, each at any time. The word an instruction is executed from is
whatever guest memory holds. -/
inductive HartEvent (δ : Type)
  | fetch
  | insn (word : BitVec 32)
  | takeTrap
  | handleIrqs
  | outside (change : Outside δ)

def riscvHartStep (lib : FpuLib) (vm : Hart δ) : HartEvent δ → Hart δ
  | .fetch => (riscvFetchInsn vm vm.pc).2
  | .insn word => riscvEmulateInsn lib (if vm.rv64 then .rv64 else .rv32) vm.zeroX0 word
  | .takeTrap => if vm.trap then { vm with pc := vm.trapPc, trap := false } else vm
  | .handleIrqs => riscvHandleIrqs vm
  | .outside change =>
    { vm with
      host := change.host
      devices := change.devices
      pendingIrqs := change.pendingIrqs
      timer := change.timer }

/-- Below machine mode `MPRV` is clear, so every access is checked with the hart's own
privilege. -/
def Confined (vm : Hart δ) : Prop :=
  vm.privMode ≠ .machine → vm.csr.mprv = false ∧ ∀ access, vm.effectivePriv access = vm.privMode

theorem confined_iff (vm : Hart δ) : Confined vm ↔ (vm.privMode ≠ .machine → vm.csr.mprv = false) := by
  constructor
  · exact fun confined low => (confined low).1
  · intro clear low
    refine ⟨clear low, fun access => ?_⟩
    unfold Hart.effectivePriv
    rw [clear low]
    rfl

theorem Confined.of_quiet {vm r : Hart δ} (quiet : Quiet vm r) (confined : Confined vm) : Confined r := by
  rw [confined_iff] at confined ⊢
  intro low
  rw [quiet.priv] at low
  rw [quiet.mprv low]
  exact confined low

theorem Confined.of_memory {vm r : Hart δ} (memory : OnlyMemory vm r) (confined : Confined vm) : Confined r :=
  confined.of_quiet (Quiet.of_memory memory)

/-! Traps and interrupts raise the privilege or keep it. -/

theorem trapTarget_ge (vm : Hart δ) (cause : TrapCause) (priv : Nat) (above : vm.privMode.code ≤ priv) :
    vm.privMode.code ≤ trapTarget vm cause priv := by
  induction priv with
  | zero => exact above
  | succ priv ih =>
    unfold trapTarget
    split
    next delegated => exact ih (Nat.le_of_lt_succ delegated.1)
    · exact above

theorem Priv.machine_of_code_le {low high : Nat} (le : low ≤ high) (machine : Priv.ofCode low = .machine) :
    Priv.ofCode high = .machine := by
  match low, high with
  | 0, _ | 1, _ | 2, _ => cases machine
  | low + 3, 0 | low + 3, 1 | low + 3, 2 => omega
  | low + 3, high + 3 => rfl

theorem mprv_bitReplace (status field : BitVec 64) {pos bits : Nat} (below : pos + bits ≤ 17) :
    (bitReplace status pos bits field).getLsbD 17 = status.getLsbD 17 := by
  rw [getLsbD_bitReplace _ _ _ _ _ (by omega), if_neg (by omega)]

theorem riscvTrapPrivHelper_mprv (vm : Hart δ) (target : Priv) :
    (riscvTrapPrivHelper vm target).csr.mprv = vm.csr.mprv := by
  cases target with
  | user => exact (mprv_bitReplace _ _ (by decide)).trans (mprv_bitReplace _ _ (by decide))
  | supervisor | hypervisor | machine =>
    exact (mprv_bitReplace _ _ (by decide)).trans
      ((mprv_bitReplace _ _ (by decide)).trans (mprv_bitReplace _ _ (by decide)))

theorem Confined.raise {vm r : Hart δ} (confined : Confined vm) (mprv : r.csr.mprv = vm.csr.mprv)
    (raised : vm.privMode = .machine → r.privMode = .machine) : Confined r := by
  rw [confined_iff] at confined ⊢
  intro low
  rw [mprv]
  exact confined fun machine => low (raised machine)

theorem Confined.switch {vm mid : Hart δ} {priv : Priv} (confined : Confined vm)
    (mprv : mid.csr.mprv = vm.csr.mprv) (raised : vm.privMode = .machine → priv = .machine) :
    Confined (riscvSwitchPriv mid priv) := by
  refine confined.raise ?_ ?_
  · rw [riscvSwitchPriv_csr, mprv]
  · rw [riscvSwitchPriv_priv]
    exact raised

variable {vm : Hart δ}

theorem riscvTrap_confined (cause : TrapCause) (tval : BitVec 64) (confined : Confined vm) :
    Confined (riscvTrap vm cause tval) := by
  unfold riscvTrap
  split
  · exact confined
  split
  · exact confined.raise rfl id
  · have entered : Confined (riscvSwitchPriv (riscvTrapPrivHelper (vm.writeTrapInfo
        (.ofCode (trapTarget vm cause Priv.machine.code)) (BitVec.ofNat 64 cause.code) tval)
        (.ofCode (trapTarget vm cause Priv.machine.code)))
        (.ofCode (trapTarget vm cause Priv.machine.code))) := by
      refine confined.switch (riscvTrapPrivHelper_mprv _ _) fun machine => ?_
      have above := trapTarget_ge vm cause Priv.machine.code (by rw [machine])
      exact Priv.machine_of_code_le above (by rw [machine, Priv.ofCode_code])
    exact entered.raise rfl id

theorem riscvHandleIrqs_confined (confined : Confined vm) : Confined (riscvHandleIrqs vm) := by
  unfold riscvHandleIrqs
  dsimp only
  generalize irqTarget vm.csr Priv.machine.code _ = target
  split
  · exact confined
  split
  · exact confined
  split
  · exact confined
  next above _ =>
    have entered : Confined (riscvSwitchPriv (riscvTrapPrivHelper vm (.ofCode target.1)) (.ofCode target.1)) := by
      refine confined.switch (riscvTrapPrivHelper_mprv _ _) fun machine => ?_
      rw [machine] at above
      have top := Priv.machine_of_code_le (Nat.le_of_not_lt above) rfl
      rwa [Priv.ofCode_code] at top
    exact entered.raise rfl id

theorem confined_advance (vm : Hart δ) (len : Nat) : Confined (vm.advance len) ↔ Confined vm := Iff.rfl

theorem riscvHartCheckInterrupts_confined :
    Confined (riscvHartCheckInterrupts vm) ↔ Confined vm := by
  unfold riscvHartCheckInterrupts
  split <;> exact Iff.rfl

theorem spp_low (status : BitVec 64) : Priv.ofCode (bitCut status 8 1).toNat = .user ∨
    Priv.ofCode (bitCut status 8 1).toNat = .supervisor := by
  have bit : (bitCut status 8 1).toNat < 2 := by
    unfold bitCut bitExtU
    rw [BitVec.toNat_ushiftRight, Nat.shiftRight_eq_div_pow]
    exact Nat.div_lt_of_lt_mul (BitVec.isLt _)
  interval_cases (bitCut status 8 1).toNat <;> decide

theorem riscvSret_confined (how : Fetched) (vm : Hart δ) :
    Confined (riscvSret how vm) ↔ vm.csr.mprv = false := by
  have low : Priv.ofCode (bitCut vm.csr.status 8 1).toNat ≠ .machine := by
    rcases spp_low vm.csr.status with named | named <;> rw [named] <;> decide
  unfold riscvSret
  rw [riscvHartCheckInterrupts_confined, confined_iff, riscvSwitchPriv_priv, riscvSwitchPriv_csr]
  have kept : ∀ status : BitVec 64, (bitReplace (bitReplace (bitReplace vm.csr.status 8 1 Priv.user.bits) 1 1
      status) 5 1 1).getLsbD 17 = vm.csr.status.getLsbD 17 := by
    intro status
    rw [mprv_bitReplace _ _ (by decide), mprv_bitReplace _ _ (by decide), mprv_bitReplace _ _ (by decide)]
  constructor
  · intro clear
    exact (kept _).symm.trans (clear low)
  · intro clear _
    exact (kept _).trans clear

theorem riscvMret_confined (how : Fetched) (vm : Hart δ) : Confined (riscvMret how vm) := by
  unfold riscvMret
  rw [riscvHartCheckInterrupts_confined, confined_iff, riscvSwitchPriv_priv, riscvSwitchPriv_csr]
  intro low
  have below : (Priv.ofCode (bitCut vm.csr.status 11 2).toNat).code < Priv.machine.code := by
    revert low
    cases Priv.ofCode (bitCut vm.csr.status 11 2).toNat <;> decide
  dsimp only [Hart.setStatus, Csr.mprv]
  rw [mprv_bitReplace _ _ (by decide), mprv_bitReplace _ _ (by decide), mprv_bitReplace _ _ (by decide),
    if_pos below]
  simp

def SretUnderMprv (vm : Hart δ) (event : HartEvent δ) : Prop :=
  event = .insn 0x10200073 ∧ vm.privMode = .machine ∧ vm.csr.mprv = true

theorem Ordinary.confined {vm r : Hart δ} (ordinary : Ordinary vm r) (confined : Confined vm) :
    Confined r := by
  cases ordinary with
  | quiet quiet => exact confined.of_quiet quiet
  | trapped memory cause tval => exact riscvTrap_confined cause tval (confined.of_memory memory)
  | halted halts => exact confined

theorem riscvEmulateInsn_sret (lib : FpuLib) (xl : Xlen) (machine : vm.privMode = .machine) :
    riscvEmulateInsn lib xl vm 0x10200073 = (riscvSret ⟨4, 0x10200073⟩ vm).advance 4 := by
  have allowed : riscvMstatusAllowed vm 22 = true := by
    unfold riscvMstatusAllowed
    rw [machine, decide_eq_true rfl, Bool.or_true]
  have executed : riscvEmulateOpcSystem ⟨4, 0x10200073⟩ vm 0x10200073 = riscvSret ⟨4, 0x10200073⟩ vm :=
    if_pos allowed
  rw [← executed]
  rfl

theorem riscvEmulateInsn_confined (lib : FpuLib) (xl : Xlen) (word : BitVec 32)
    (confined : Confined vm) :
    Confined (riscvEmulateInsn lib xl vm word) ↔
      ¬ (word = 0x10200073 ∧ vm.privMode = .machine ∧ vm.csr.mprv = true) := by
  by_cases sret : word = 0x10200073 ∧ vm.privMode = .machine
  · obtain ⟨rfl, machine⟩ := sret
    rw [riscvEmulateInsn_sret lib xl machine, confined_advance, riscvSret_confined]
    simp [machine]
  · obtain ⟨r, len, result, outcome⟩ := riscvEmulateInsn_outcome lib xl vm word
    rw [result, confined_advance]
    refine iff_of_true ?_ fun bad => sret ⟨bad.1, bad.2.1⟩
    cases outcome with
    | ordinary ordinary => exact ordinary.confined confined
    | returned returned =>
      cases returned with
      | sret same allowed =>
        rw [riscvSret_confined]
        exact (confined fun machine => sret ⟨same, machine⟩).1
      | mret same machine => exact riscvMret_confined _ vm
    | fcvtmod opcode long fields enabled =>
      exact riscvTrap_confined _ _ (confined.raise rfl id)

theorem riscvHartStep_confined (lib : FpuLib) (vm : Hart δ) (event : HartEvent δ) (confined : Confined vm) :
    Confined (riscvHartStep lib vm event) ↔ ¬ SretUnderMprv vm event := by
  have other (after : Confined (riscvHartStep lib vm event)) (kind : event ≠ .insn 0x10200073) :
      Confined (riscvHartStep lib vm event) ↔ ¬ SretUnderMprv vm event :=
    iff_of_true after fun bad => kind bad.1
  cases event with
  | fetch =>
    refine other ?_ nofun
    unfold riscvHartStep
    have fetched := riscvFetchInsn_result vm vm.pc
    generalize riscvFetchInsn vm vm.pc = out at fetched ⊢
    cases fetched with
    | done value memory => exact confined.of_memory memory
    | faulted memory cause tval may =>
      exact riscvTrap_confined cause tval (confined.of_memory memory)
    | refused memory => exact confined.of_memory memory
  | insn word =>
    have zeroed : Confined vm.zeroX0 := confined
    unfold riscvHartStep SretUnderMprv
    rw [riscvEmulateInsn_confined lib _ word zeroed, HartEvent.insn.injEq]
    exact Iff.rfl
  | takeTrap =>
    refine other ?_ nofun
    show Confined (if vm.trap then { vm with pc := vm.trapPc, trap := false } else vm)
    split <;> exact confined
  | handleIrqs => exact other (riscvHandleIrqs_confined confined) nofun
  | outside change => exact other confined nofun

/-- In every run from machine mode, as after a reset, the hart stays confined exactly until an
`SRET` is executed in machine mode with `MPRV` set. -/
theorem mprv_confined_iff {δ : Type} (lib : FpuLib) (vm : Hart δ) (reset : vm.privMode = .machine)
    (events : List (HartEvent δ)) :
    (∀ s ∈ visited (riscvHartStep lib) vm events, Confined s) ↔
      AllSteps (riscvHartStep lib) (fun s event => ¬ SretUnderMprv s event) vm events := by
  refine @invariant_iff _ _ _ (fun _ => True) _ _ (fun _ _ _ => trivial) ?_ vm events trivial ?_
  · exact fun s event _ confined => riscvHartStep_confined lib s event confined
  · exact fun low => absurd reset low

def resetHart : Hart Unit := riscvHartInit .empty (fun _ => 0) [] () true false

def sretUnderMprv : List (HartEvent Unit) :=
  -- lui x1, 0x22; addi x1, x1, -2048; csrs mstatus, x1; sret
  [.insn 0x000220B7, .insn 0x80008093, .insn 0x3000A073, .insn 0x10200073]

/-- A library for runs without floating-point arithmetic. -/
instance : Inhabited FpuLib where
  default :=
    { bin32 := fun _ _ _ _ => default
      bin64 := fun _ _ _ _ => default
      sqrt32 := fun _ _ => default
      sqrt64 := fun _ _ => default
      fma32 := fun _ _ _ _ => default
      fma64 := fun _ _ _ _ => default
      cmp32 := fun _ _ _ => default
      cmp64 := fun _ _ _ => default
      toInt32 := fun _ _ _ => default
      toInt64 := fun _ _ _ => default
      ofInt32 := fun _ _ _ => default
      ofInt64 := fun _ _ _ => default
      narrow := fun _ _ => default
      widen := fun _ => default
      fcvtF64ToI32 := fun _ => default
      fclass32 := fun _ => default
      fclass64 := fun _ => default }

theorem mprv_confined_iff_resetHart : resetHart.privMode = .machine ∧
    ((∀ s ∈ visited (riscvHartStep default) resetHart sretUnderMprv, Confined s) ↔
      AllSteps (riscvHartStep default) (fun s event => ¬ SretUnderMprv s event) resetHart
        sretUnderMprv) :=
  ⟨rfl, mprv_confined_iff default resetHart rfl sretUnderMprv⟩

/-- The hart ends in user mode, with loads and stores checked as those of machine mode. -/
theorem mprv_escapes :
    let last := final (riscvHartStep default) resetHart sretUnderMprv
    last.privMode = .user ∧ last.csr.mprv = true ∧ last.effectivePriv Access.read.mask = .machine ∧
      ¬ ∀ s ∈ visited (riscvHartStep default) resetHart sretUnderMprv, Confined s := by
  intro last
  have user : last.privMode = .user := by decide +kernel
  have mprv : last.csr.mprv = true := by decide +kernel
  refine ⟨user, mprv, by decide +kernel, ?_⟩
  intro all
  have clear := (all last (final_mem_visited _ _) (by rw [user]; decide)).1
  rw [mprv] at clear
  cases clear

end Rvvm
