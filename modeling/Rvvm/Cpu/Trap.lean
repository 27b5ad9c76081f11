import Rvvm.Cpu.Hart

/-! What taking a trap touches. -/
namespace Rvvm

variable {δ : Type}

/-- Two harts that agree on everything a trap leaves alone. -/
structure SameData (a b : Hart δ) : Prop where
  registers : a.registers = b.registers
  fpuRegisters : a.fpuRegisters = b.fpuRegisters
  pc : a.pc = b.pc
  host : a.host = b.host
  mem : a.mem = b.mem
  userland : a.userland = b.userland
  devices : a.devices = b.devices
  mmioDevs : a.mmioDevs = b.mmioDevs

namespace SameData

theorem refl (a : Hart δ) : SameData a a := ⟨rfl, rfl, rfl, rfl, rfl, rfl, rfl, rfl⟩

end SameData

section
variable (vm : Hart δ)
include vm

theorem riscvUpdateXlen_cases :
    riscvUpdateXlen vm = vm ∨
      ∃ rv64, riscvUpdateXlen vm = riscvRestartDispatch { vm with rv64 := rv64 } := by
  unfold riscvUpdateXlen
  dsimp only
  split_ifs
  · exact .inr ⟨_, rfl⟩
  · exact .inl rfl

theorem riscvSwitchPriv_cases (priv : Priv) :
    (vm.privMode = priv ∧ riscvSwitchPriv vm priv = vm) ∨
      (vm.privMode ≠ priv ∧ ∃ rv64, riscvSwitchPriv vm priv =
        riscvTlbFlush { vm with privMode := priv, rv64 := rv64 }) := by
  unfold riscvSwitchPriv
  by_cases same : vm.privMode = priv
  · exact .inl ⟨same, if_neg (not_not.mpr same)⟩
  · right
    refine ⟨same, ?_⟩
    rw [if_pos same]
    rcases riscvUpdateXlen_cases { vm with privMode := priv } with kept | ⟨rv64, changed⟩
    · exact ⟨vm.rv64, by rw [kept]⟩
    · exact ⟨rv64, by rw [changed]; rfl⟩

theorem riscvSwitchPriv_data (priv : Priv) : SameData (riscvSwitchPriv vm priv) vm := by
  rcases riscvSwitchPriv_cases vm priv with ⟨-, kept⟩ | ⟨-, rv64, switched⟩
  · rw [kept]
    exact SameData.refl vm
  · rw [switched]
    exact ⟨rfl, rfl, rfl, rfl, rfl, rfl, rfl, rfl⟩

theorem riscvSwitchPriv_priv (priv : Priv) : (riscvSwitchPriv vm priv).privMode = priv := by
  rcases riscvSwitchPriv_cases vm priv with ⟨same, kept⟩ | ⟨-, rv64, switched⟩
  · rw [kept, same]
  · rw [switched]
    rfl

theorem riscvSwitchPriv_csr (priv : Priv) : (riscvSwitchPriv vm priv).csr = vm.csr := by
  rcases riscvSwitchPriv_cases vm priv with ⟨-, kept⟩ | ⟨-, rv64, switched⟩
  · rw [kept]
  · rw [switched]
    rfl

theorem riscvTrapPrivHelper_eq (target : Priv) :
    ∃ status, riscvTrapPrivHelper vm target = vm.setStatus status := by
  cases target <;> exact ⟨_, rfl⟩

theorem riscvTrap_data (cause : TrapCause) (tval : BitVec 64) :
    SameData (riscvTrap vm cause tval) vm := by
  unfold riscvTrap
  split
  · exact SameData.refl vm
  split
  · exact ⟨rfl, rfl, rfl, rfl, rfl, rfl, rfl, rfl⟩
  · generalize Priv.ofCode (trapTarget vm cause Priv.machine.code) = priv
    obtain ⟨status, helper⟩ := riscvTrapPrivHelper_eq
      (vm.writeTrapInfo priv (BitVec.ofNat 64 cause.code) tval) priv
    have switched := riscvSwitchPriv_data
      ((vm.writeTrapInfo priv (BitVec.ofNat 64 cause.code) tval).setStatus status) priv
    simp only [helper]
    exact ⟨switched.registers, switched.fpuRegisters, switched.pc, switched.host, switched.mem,
      switched.userland, switched.devices, switched.mmioDevs⟩

theorem riscvTrap_trap (cause : TrapCause) (tval : BitVec 64) :
    (riscvTrap vm cause tval).trap = true := by
  unfold riscvTrap
  split
  · assumption
  split <;> rfl

end

/-- The exception information a trap records: for a userland hart the cause, otherwise also the
address of the instruction, each for one privilege. -/
structure Recorded (vm vm' : Hart δ) (priv : Priv) (cause : TrapCause) (tval : BitVec 64) : Prop where
  cause : vm'.csr.cause = Function.update vm.csr.cause priv (BitVec.ofNat 64 cause.code)
  tval : vm'.csr.tval = Function.update vm.csr.tval priv tval
  epc : vm.userland = false → vm'.csr.epc = Function.update vm.csr.epc priv vm.pc
  userland : vm.userland = true → vm'.csr.epc = vm.csr.epc ∧ vm'.trapPc = vm.pc

theorem riscvTrap_recorded (vm : Hart δ) (cause : TrapCause) (tval : BitVec 64) (ready : vm.trap = false) :
    ∃ priv, Recorded vm (riscvTrap vm cause tval) priv cause tval := by
  unfold riscvTrap
  rw [if_neg (by simp [ready])]
  by_cases user : vm.userland = true
  · rw [if_pos user]
    refine ⟨.user, rfl, rfl, ?_, fun _ => ⟨rfl, rfl⟩⟩
    simp [user]
  · rw [if_neg user]
    generalize Priv.ofCode (trapTarget vm cause Priv.machine.code) = priv
    obtain ⟨status, helper⟩ := riscvTrapPrivHelper_eq
      (vm.writeTrapInfo priv (BitVec.ofNat 64 cause.code) tval) priv
    have csr := riscvSwitchPriv_csr
      ((vm.writeTrapInfo priv (BitVec.ofNat 64 cause.code) tval).setStatus status) priv
    simp only [helper]
    refine ⟨priv, ?_, ?_, ?_, fun on => absurd on user⟩
    · exact congrArg Csr.cause csr
    · exact congrArg Csr.tval csr
    · intro _
      exact congrArg Csr.epc csr

end Rvvm
