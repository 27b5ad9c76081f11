import Rvvm.Cpu.Outcome

/-! Precise traps: what a trapping instruction has done before it trapped. -/
namespace Rvvm

variable {δ : Type}

/-- `r` is the hart after an instruction that set the trap flag on `vm`: the registers are those
from before, and one exception was recorded at the address of the instruction, or none because
the debugger took the breakpoint. `x0` is zeroed before every instruction and does not count. -/
structure Precise (vm r : Hart δ) : Prop where
  registers : ∀ reg, reg ≠ 0 → r.registers reg = vm.registers reg
  fpuRegisters : r.fpuRegisters = vm.fpuRegisters
  recorded : (∃ priv cause tval, Recorded vm r priv cause tval) ∨
    (vm.gdbHalts = true ∧ r.csr = vm.csr ∧ r.trapPc = vm.pc)

theorem Recorded.of_same {a b r : Hart δ} {priv : Priv} {cause : TrapCause} {tval : BitVec 64}
    (recorded : Recorded a r priv cause tval) (csr : a.csr = b.csr) (pc : a.pc = b.pc)
    (userland : a.userland = b.userland) : Recorded b r priv cause tval where
  cause := csr ▸ recorded.cause
  tval := csr ▸ recorded.tval
  epc := fun off => csr ▸ pc ▸ recorded.epc (userland.trans off)
  userland := fun on => csr ▸ pc ▸ recorded.userland (userland.trans on)

theorem riscvTrap_precise {vm vm' : Hart δ} (cause : TrapCause) (tval : BitVec 64) (ready : vm'.trap = false)
    (registers : ∀ reg, reg ≠ 0 → vm'.registers reg = vm.registers reg)
    (fpuRegisters : vm'.fpuRegisters = vm.fpuRegisters) (csr : vm'.csr = vm.csr) (pc : vm'.pc = vm.pc)
    (userland : vm'.userland = vm.userland) : Precise vm (riscvTrap vm' cause tval) := by
  have data := riscvTrap_data vm' cause tval
  obtain ⟨priv, recorded⟩ := riscvTrap_recorded vm' cause tval ready
  refine ⟨?_, ?_, .inl ⟨priv, cause, tval, recorded.of_same csr pc userland⟩⟩
  · intro reg other
    rw [data.registers]
    exact registers reg other
  · rw [data.fpuRegisters]
    exact fpuRegisters

theorem riscvSwitchPriv_trap (vm : Hart δ) (priv : Priv) : (riscvSwitchPriv vm priv).trap = vm.trap := by
  rcases riscvSwitchPriv_cases vm priv with ⟨-, kept⟩ | ⟨-, rv64, switched⟩
  · rw [kept]
  · rw [switched]
    rfl

theorem riscvHartCheckInterrupts_trap (vm : Hart δ) : (riscvHartCheckInterrupts vm).trap = vm.trap := by
  unfold riscvHartCheckInterrupts
  split <;> rfl

variable {vm r : Hart δ}

theorem Returned.trap {how : Fetched} {insn : BitVec 32} (returned : Returned how vm insn r) :
    r.trap = vm.trap := by
  cases returned with
  | sret word allowed =>
    unfold riscvSret
    rw [riscvHartCheckInterrupts_trap, riscvSwitchPriv_trap]
    rfl
  | mret word machine =>
    unfold riscvMret
    rw [riscvHartCheckInterrupts_trap, riscvSwitchPriv_trap]
    rfl

theorem Ordinary.precise (ready : vm.trap = false) (ordinary : Ordinary vm r)
    (trap : r.trap = true) : Precise vm r := by
  cases ordinary with
  | quiet quiet =>
    rw [quiet.trap, ready] at trap
    cases trap
  | trapped memory cause tval =>
    refine riscvTrap_precise cause tval ?_ ?_ ?_ ?_ ?_ ?_ <;> rw [memory]
    · exact ready
    · exact fun _ _ => rfl
  | halted halts => exact ⟨fun _ _ => rfl, rfl, .inr ⟨halts, rfl, rfl⟩⟩

theorem Precise.advance (precise : Precise vm r) (len : Nat) : Precise vm (r.advance len) := by
  refine ⟨precise.registers, precise.fpuRegisters, ?_⟩
  rcases precise.recorded with ⟨priv, cause, tval, recorded⟩ | halted
  · exact .inl ⟨priv, cause, tval, recorded.cause, recorded.tval, recorded.epc, recorded.userland⟩
  · exact .inr halted

/-! The exception: `fcvtmod.w.d` writes its destination and then leaves the switch as an illegal
instruction. -/

/-- The word decodes as `fcvtmod.w.d` with a destination other than `x0`. -/
structure WritesThenTraps (insn : BitVec 32) : Prop where
  long : insn &&& 0x3#32 = 0x3#32
  opcode : (insn &&& 0x7C#32).toNat = 0x50
  fields : Fcvtmod insn
  rds : regField insn 7 ≠ 0

instance (insn : BitVec 32) : Decidable (Fcvtmod insn) :=
  decidable_of_iff ((insn >>> 25).toNat = 0x61 ∧ (regField insn 20).toNat = 0x08 ∧
    (bitExtU32 insn 12 3).toNat = 1)
    ⟨fun h => ⟨h.1, h.2.1, h.2.2⟩, fun h => ⟨h.funct7, h.rs2, h.rm⟩⟩

instance (insn : BitVec 32) : Decidable (WritesThenTraps insn) :=
  decidable_of_iff (insn &&& 0x3#32 = 0x3#32 ∧ (insn &&& 0x7C#32).toNat = 0x50 ∧ Fcvtmod insn ∧
    regField insn 7 ≠ 0)
    ⟨fun h => ⟨h.1, h.2.1, h.2.2.1, h.2.2.2⟩, fun h => ⟨h.long, h.opcode, h.fields, h.rds⟩⟩

section Fcvtmod
variable (lib : FpuLib) (vm : Hart δ) {insn : BitVec 32}

theorem fpuOpCase_fcvtmod (fields : Fcvtmod insn) (round : FpuRound) :
    fpuOpCase lib vm insn round = (false, fcvtmodResult lib vm insn) := by
  unfold fpuOpCase
  rw [fields.funct7, fields.rm]
  dsimp only
  rw [fields.rs2]
  rfl

section
variable (xl : Xlen) (word : WritesThenTraps insn) (enabled : riscvFpuIsEnabled vm = true)
include xl word enabled

theorem riscvEmulateInsn_fcvtmod :
    riscvEmulateInsn lib xl vm insn = (riscvIllegalInsn (fcvtmodResult lib vm insn) insn).advance 4 := by
  have executed : riscvEmulateI lib xl ⟨4, insn⟩ vm insn = riscvEmulateFOpcOp lib vm insn := by
    unfold riscvEmulateI
    rw [word.opcode]
    rfl
  have emulated : riscvEmulateInsn lib xl vm insn = (riscvEmulateI lib xl ⟨4, insn⟩ vm insn).advance 4 := by
    unfold riscvEmulateInsn
    rw [word.long]
    rfl
  rw [emulated, executed, riscvEmulateFOpcOp, if_pos enabled, fpuOpCase_fcvtmod lib vm word.fields]

theorem riscvEmulateInsn_fcvtmod_rds :
    (riscvEmulateInsn lib xl vm insn).registers (regField insn 7) =
      (lib.fcvtF64ToI32 (riscvReadD vm (regField insn 15))).1.signExtend 64 := by
  have data := riscvTrap_data (fcvtmodResult lib vm insn) .illInsn (insn.setWidth 64)
  rw [riscvEmulateInsn_fcvtmod lib vm xl word enabled]
  exact (congrFun data.registers _).trans (Function.update_self _ _ _)
end

end Fcvtmod

/-- Every instruction traps precisely, whatever the integer registers hold, except
`fcvtmod.w.d` into a register other than `x0` while the floating-point unit is on. -/
theorem traps_precise_iff {δ : Type} (lib : FpuLib) (xl : Xlen) (insn : BitVec 32) (vm : Hart δ)
    (ready : vm.trap = false) :
    (∀ registers, (riscvEmulateInsn lib xl { vm with registers := registers } insn).trap = true →
      Precise { vm with registers := registers }
        (riscvEmulateInsn lib xl { vm with registers := registers } insn)) ↔
      ¬ (WritesThenTraps insn ∧ riscvFpuIsEnabled vm = true) := by
  constructor
  · rintro precise ⟨word, enabled⟩
    let result := (lib.fcvtF64ToI32 (riscvReadD vm (regField insn 15))).1.signExtend 64
    have trap : (riscvEmulateInsn lib xl { vm with registers := fun _ => result + 1 } insn).trap = true := by
      rw [riscvEmulateInsn_fcvtmod lib { vm with registers := fun _ => result + 1 } xl word enabled]
      exact riscvTrap_trap _ _ _
    have kept := (precise _ trap).registers (regField insn 7) word.rds
    have written := riscvEmulateInsn_fcvtmod_rds lib { vm with registers := fun _ => result + 1 } xl word
      enabled
    have equal : result = result + 1 := written.symm.trans kept
    exact absurd equal (by bv_omega)
  · intro other registers trap
    obtain ⟨r, len, result, outcome⟩ :=
      riscvEmulateInsn_outcome lib xl { vm with registers := registers } insn
    rw [result] at trap ⊢
    refine Precise.advance ?_ len
    cases outcome with
    | ordinary ordinary => exact ordinary.precise ready trap
    | returned returned =>
      have kept : r.trap = false := returned.trap.trans ready
      exact absurd trap (by simp [Hart.advance, kept])
    | fcvtmod opcode long fields enabled =>
      have zero : regField insn 7 = 0 := by
        by_contra rds
        exact other ⟨⟨long, opcode, fields, rds⟩, enabled⟩
      refine riscvTrap_precise _ _ ready ?_ rfl rfl rfl rfl
      intro reg nonzero
      exact Function.update_of_ne (zero ▸ nonzero) _ _

def oneHart : Hart Unit :=
  let vm : Hart Unit := riscvHartInit .empty (fun _ => 0) [] () true false
  { vm with
    csr := { vm.csr with status := 0x2000 }
    fpuRegisters := fun _ => 0x3FF0000000000000 }

theorem traps_precise_iff_oneHart : oneHart.trap = false ∧ ∀ lib : FpuLib,
    ((∀ registers, (riscvEmulateInsn lib .rv64 { oneHart with registers := registers } 0xC28010D3).trap = true →
      Precise { oneHart with registers := registers }
        (riscvEmulateInsn lib .rv64 { oneHart with registers := registers } 0xC28010D3)) ↔
      ¬ (WritesThenTraps 0xC28010D3 ∧ riscvFpuIsEnabled oneHart = true)) :=
  ⟨rfl, fun lib => traps_precise_iff lib .rv64 0xC28010D3 oneHart rfl⟩

/-- `fcvtmod.w.d x1, f0` raises an illegal-instruction exception after it has written `x1`. -/
theorem fcvtmod_writes_then_traps : oneHart.trap = false ∧ oneHart.registers 1 = 0 ∧
    ∀ lib : FpuLib, lib.fcvtF64ToI32 0x3FF0000000000000 = (1, 0) →
      (riscvEmulateInsn lib .rv64 oneHart 0xC28010D3).trap = true ∧
        (riscvEmulateInsn lib .rv64 oneHart 0xC28010D3).csr.cause .machine = 2 ∧
          (riscvEmulateInsn lib .rv64 oneHart 0xC28010D3).registers 1 = 1 ∧
            ¬ Precise oneHart (riscvEmulateInsn lib .rv64 oneHart 0xC28010D3) := by
  refine ⟨rfl, rfl, ?_⟩
  intro lib converts
  have word : WritesThenTraps 0xC28010D3 := by decide
  have enabled : riscvFpuIsEnabled oneHart = true := by decide
  have out := riscvEmulateInsn_fcvtmod lib oneHart .rv64 word enabled
  have written : (riscvEmulateInsn lib .rv64 oneHart 0xC28010D3).registers 1 = 1 := by
    have operand : riscvReadD oneHart (regField 0xC28010D3 15) = 0x3FF0000000000000 := rfl
    have destination := riscvEmulateInsn_fcvtmod_rds lib oneHart .rv64 word enabled
    rw [operand, converts] at destination
    exact destination
  refine ⟨?_, ?_, written, ?_⟩
  · rw [out]
    exact riscvTrap_trap _ _ _
  · rfl
  · intro precise
    have kept := precise.registers 1 (by decide)
    rw [written] at kept
    cases kept

end Rvvm
