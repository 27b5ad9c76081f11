import Rvvm.Cpu.Compressed
import Rvvm.Cpu.CsrSafety
import Rvvm.Cpu.MmuFrame

/-! How executing one instruction can end, swept over the whole interpreter. -/
namespace Rvvm
open BitVec

variable {δ : Type}

/-! Instructions that run to their end. -/

/-- The instruction neither traps nor changes the privilege, `MPRV` stays as it is unless machine
mode wrote it, and legal fields stay legal. -/
structure Quiet (vm r : Hart δ) : Prop where
  trap : r.trap = vm.trap
  priv : r.privMode = vm.privMode
  mprv : vm.privMode ≠ .machine → r.csr.mprv = vm.csr.mprv
  machineRv64 : r.machineRv64 = vm.machineRv64
  warl : WarlKept vm.machineRv64 vm.csr r.csr

namespace Quiet

theorem of_same {vm r : Hart δ} (trap : r.trap = vm.trap) (priv : r.privMode = vm.privMode)
    (csr : r.csr = vm.csr) (machineRv64 : r.machineRv64 = vm.machineRv64) : Quiet vm r where
  trap := trap
  priv := priv
  mprv := fun _ => by rw [csr]
  machineRv64 := machineRv64
  warl := csr ▸ .refl _

theorem refl (vm : Hart δ) : Quiet vm vm := .of_same rfl rfl rfl rfl

theorem trans {a b c : Hart δ} (first : Quiet a b) (second : Quiet b c) : Quiet a c where
  trap := second.trap.trans first.trap
  priv := second.priv.trans first.priv
  mprv := fun low => (second.mprv (first.priv ▸ low)).trans (first.mprv low)
  machineRv64 := second.machineRv64.trans first.machineRv64
  warl := first.warl.trans (first.machineRv64 ▸ second.warl)

theorem of_memory {vm vm' : Hart δ} (memory : OnlyMemory vm vm') : Quiet vm vm' := by
  rw [memory]
  exact .of_same rfl rfl rfl rfl

section
variable (vm : Hart δ)

theorem writeReg (reg : BitVec 5) (data : BitVec 64) : Quiet vm (vm.writeReg reg data) :=
  .of_same rfl rfl rfl rfl

theorem accrue (flags : BitVec 32) : Quiet vm (vm.accrue flags) :=
  .of_same rfl rfl rfl rfl

theorem setDirty : Quiet vm (riscvFpuSetDirty vm) := by
  unfold riscvFpuSetDirty
  split
  · refine ⟨rfl, rfl, fun _ => ?_, rfl, .setStatus _ StatusLegal.setDirty⟩
    unfold Hart.setStatus Csr.mprv
    simp
  · exact .refl vm

theorem writeFpuReg (reg : BitVec 5) (data : BitVec 64) :
    Quiet vm (vm.writeFpuReg reg data) := by
  have written : Quiet vm { vm with fpuRegisters := Function.update vm.fpuRegisters reg data } :=
    .of_same rfl rfl rfl rfl
  exact written.trans (setDirty _)

theorem emitS (reg : BitVec 5) (out : BitVec 32 × BitVec 32) :
    Quiet vm (riscvEmitS vm reg out) :=
  (accrue vm out.2).trans (writeFpuReg _ reg _)

theorem emitD (reg : BitVec 5) (out : BitVec 64 × BitVec 32) :
    Quiet vm (riscvEmitD vm reg out) :=
  (accrue vm out.2).trans (writeFpuReg _ reg _)

end

theorem of_effect {vm vm' : Hart δ} (effect : CsrEffect vm.privMode.code vm vm') : Quiet vm vm' := by
  have control := effect.control
  refine ⟨by rw [control], by rw [control], fun low => ?_, by rw [control], effect.warl⟩
  have status : hidden vm.privMode.code statusShield vm'.csr.status =
      hidden vm.privMode.code statusShield vm.csr.status := congrArg Shielded.status effect.shield
  have bit (value : BitVec 64) : (value &&& statusShield).getLsbD 17 = value.getLsbD 17 := by
    rw [getLsbD_and, show statusShield.getLsbD 17 = true by decide, Bool.and_true]
  revert low status
  cases vm.privMode with
  | user => exact fun _ status => congrArg (getLsbD · 17) status
  | supervisor | hypervisor =>
    intro _ status
    have same := congrArg (getLsbD · 17) status
    rwa [show hidden _ statusShield vm'.csr.status = vm'.csr.status &&& statusShield from rfl,
      show hidden _ statusShield vm.csr.status = vm.csr.status &&& statusShield from rfl, bit, bit] at same
  | machine => exact fun low => absurd rfl low

end Quiet

/-- The ends of all instructions but three: none to speak of, one trap after touching nothing
but memory, or a breakpoint that the debugger takes. -/
inductive Ordinary (vm : Hart δ) : Hart δ → Prop
  | quiet {r : Hart δ} (quiet : Quiet vm r) : Ordinary vm r
  | trapped {vm' : Hart δ} (memory : OnlyMemory vm vm') (cause : TrapCause) (tval : BitVec 64) :
      Ordinary vm (riscvTrap vm' cause tval)
  | halted (halts : vm.gdbHalts = true) : Ordinary vm (riscvRestartAtPc vm vm.pc)

namespace Ordinary

theorem trap (vm : Hart δ) (cause : TrapCause) (tval : BitVec 64) : Ordinary vm (riscvTrap vm cause tval) :=
  .trapped (.refl vm) cause tval

theorem illegal (vm : Hart δ) (insn : BitVec 32) : Ordinary vm (riscvIllegalInsn vm insn) :=
  trap vm .illInsn _

theorem breakpoint (vm : Hart δ) : Ordinary vm (riscvBreakpoint vm) := by
  unfold riscvBreakpoint
  split
  next halts => exact .halted halts
  · exact trap vm .breakpoint 0

theorem writeReg (vm : Hart δ) (reg : BitVec 5) (data : BitVec 64) : Ordinary vm (vm.writeReg reg data) :=
  .quiet (.writeReg vm reg data)

theorem write (xl : Xlen) (vm : Hart δ) (reg : BitVec 5) (data : BitVec xl.width) :
    Ordinary vm (riscvWriteReg xl vm reg data) := writeReg vm reg _

theorem jump (xl : Xlen) (vm : Hart δ) (target : BitVec xl.width) : Ordinary vm (riscvWritePc xl vm target) :=
  .quiet (.of_same rfl rfl rfl rfl)

theorem link (xl : Xlen) (vm : Hart δ) (reg : BitVec 5) (data target : BitVec xl.width) :
    Ordinary vm (riscvWritePc xl (riscvWriteReg xl vm reg data) target) :=
  .quiet (.of_same rfl rfl rfl rfl)

theorem of_result {α : Type} {vm r : Hart δ} {result : Option α × Hart δ} (access : MemResult true vm result)
    (stops : ∀ vm', result = (none, vm') → r = vm')
    (continues : ∀ value vm', result = (some value, vm') → Quiet vm' r) : Ordinary vm r := by
  cases access with
  | done value memory => exact .quiet ((Quiet.of_memory memory).trans (continues value _ rfl))
  | faulted memory cause tval may =>
    rw [stops _ rfl]
    exact .trapped memory cause tval
  | refused memory =>
    rw [stops _ rfl]
    exact .quiet (.of_memory memory)

theorem load (kind : LoadKind) (vm : Hart δ) (vaddr : Addr) (reg : BitVec 5) :
    Ordinary vm (riscvLoad kind vm vaddr reg) := by
  unfold riscvLoad
  refine of_result (riscvLoadBytes_result vm vaddr kind.size) (fun vm' out => by rw [out]) ?_
  intro bytes vm' out
  rw [out]
  exact .writeReg vm' reg _

section
variable (vm : Hart δ) (vaddr : Addr)

theorem loadFloat (reg : BitVec 5) :
    Ordinary vm (riscvLoadFloat vm vaddr reg) := by
  unfold riscvLoadFloat
  refine of_result (riscvLoadBytes_result vm vaddr 4) (fun vm' out => by rw [out]) ?_
  intro bytes vm' out
  rw [out]
  exact .writeFpuReg vm' reg _

theorem loadDouble (reg : BitVec 5) :
    Ordinary vm (riscvLoadDouble vm vaddr reg) := by
  unfold riscvLoadDouble
  refine of_result (riscvLoadBytes_result vm vaddr 8) (fun vm' out => by rw [out]) ?_
  intro bytes vm' out
  rw [out]
  exact .writeFpuReg vm' reg _

theorem storeBytes (data : List Byte) :
    Ordinary vm (riscvStoreBytes vm vaddr data) := by
  obtain ⟨value, result⟩ := riscvStoreBytes_result vm vaddr data
  refine of_result result (fun vm' out => (Prod.mk.inj out).2) ?_
  intro value vm' out
  rw [(Prod.mk.inj out).2]
  exact .refl vm'

end

theorem store (kind : StoreKind) (vm : Hart δ) (vaddr : Addr) (reg : BitVec 5) :
    Ordinary vm (riscvStore kind vm vaddr reg) := storeBytes vm vaddr _

theorem storeFloat (vm : Hart δ) (vaddr : Addr) (reg : BitVec 5) :
    Ordinary vm (riscvStoreFloat vm vaddr reg) := storeBytes vm vaddr _

theorem storeDouble (vm : Hart δ) (vaddr : Addr) (reg : BitVec 5) :
    Ordinary vm (riscvStoreDouble vm vaddr reg) := storeBytes vm vaddr _

theorem computed {xl : Xlen} (vm : Hart δ) (reg : BitVec 5) (word : BitVec 32)
    (result : Option (BitVec xl.width)) :
    Ordinary vm (match result with
      | some value => riscvWriteReg xl vm reg value
      | none => riscvIllegalInsn vm word) := by
  cases result with
  | some value => exact writeReg vm reg _
  | none => exact illegal vm word

end Ordinary

/-! Integer instructions. -/

section Integer
variable (xl : Xlen) (how : Fetched) (vm : Hart δ) (insn : BitVec 32)

theorem riscvEmulateIOpcLoad_ordinary : Ordinary vm (riscvEmulateIOpcLoad xl how vm insn) := by
  unfold riscvEmulateIOpcLoad
  split <;> first | exact .load _ vm _ _ | exact .illegal vm _

theorem riscvEmulateIOpcStore_ordinary : Ordinary vm (riscvEmulateIOpcStore xl how vm insn) := by
  unfold riscvEmulateIOpcStore
  split <;> first | exact .store _ vm _ _ | exact .illegal vm _

theorem riscvEmulateFOpcLoad_ordinary : Ordinary vm (riscvEmulateFOpcLoad xl how vm insn) := by
  unfold riscvEmulateFOpcLoad
  split
  · split
    · exact .loadFloat vm _ _
    · exact .loadDouble vm _ _
    · exact .illegal vm _
  · exact .illegal vm _

theorem riscvEmulateFOpcStore_ordinary : Ordinary vm (riscvEmulateFOpcStore xl how vm insn) := by
  unfold riscvEmulateFOpcStore
  split
  · split
    · exact .storeFloat vm _ _
    · exact .storeDouble vm _ _
    · exact .illegal vm _
  · exact .illegal vm _

theorem riscvEmulateIOpcImm_ordinary : Ordinary vm (riscvEmulateIOpcImm xl how vm insn) := by
  exact .computed vm _ _ _

theorem riscvEmulateIOpcImm32_ordinary : Ordinary vm (riscvEmulateIOpcImm32 how vm insn) := by
  unfold riscvEmulateIOpcImm32
  split
  · exact .writeReg vm _ _
  · exact .illegal vm _

theorem riscvEmulateIOpcOp_ordinary : Ordinary vm (riscvEmulateIOpcOp xl how vm insn) := by
  exact .computed vm _ _ _

theorem riscvEmulateIOpcOp32_ordinary : Ordinary vm (riscvEmulateIOpcOp32 how vm insn) := by
  unfold riscvEmulateIOpcOp32
  dsimp only
  split
  · exact .writeReg vm _ _
  · exact .illegal vm _

theorem riscvEmulateIOpcBranch_ordinary : Ordinary vm (riscvEmulateIOpcBranch xl how vm insn) := by
  have branch (taken : Bool) : Ordinary vm
      (if taken then riscvJump xl how vm (decodeIBranchOff insn) else vm) := by
    split
    · exact .jump xl vm _
    · exact .quiet (.refl vm)
  unfold riscvEmulateIOpcBranch
  split <;> first | exact branch _ | exact .illegal vm _

theorem riscvEmulateIJalr_ordinary : Ordinary vm (riscvEmulateIJalr xl how vm insn) := by
  unfold riscvEmulateIJalr
  split
  · exact .link xl vm _ _ _
  · exact .illegal vm _

theorem riscvEmulateIJal_ordinary : Ordinary vm (riscvEmulateIJal xl how vm insn) := .link xl vm _ _ _

theorem riscvEmulateOpcMiscMem_ordinary : Ordinary vm (riscvEmulateOpcMiscMem how vm insn) := by
  have kept : Ordinary vm vm := .quiet (.refl vm)
  have zeroed (vaddr : Addr) : Ordinary vm (riscvCboZero vm vaddr) := by
    unfold riscvCboZero
    refine .of_result (riscvPtrTranslate_result vm _ 64 false .write) (fun vm' out => by rw [out]) ?_
    intro ptr vm' out
    rw [out]
    cases ptr with
    | host p => exact .of_same rfl rfl rfl rfl
    | bounce data => exact .refl vm'
  unfold riscvEmulateOpcMiscMem
  dsimp only
  split
  · exact kept
  · split
    · exact kept
    · exact .quiet (.of_same rfl rfl rfl rfl)
  · split <;> first | exact .illegal vm _ | split <;> first | exact kept | exact zeroed _ | exact .illegal vm _
  · exact .illegal vm _

end Integer

/-! Atomics: the destination is written once the operand has been translated, and nothing after
that traps. -/

section Atomics
variable (xl : Xlen) (vm : Hart δ) (insn : BitVec 32)

theorem amoExecute_quiet (size : Nat) (op : AmoOp) (vaddr : Addr) (ptr : RmwPtr) :
    Quiet vm (amoExecute xl vm insn size op vaddr ptr) := by
  have stored (mid : Hart δ) (quiet : Quiet vm mid) (data : List Byte) :
      Quiet vm (ptr.store mid vaddr data) := quiet.trans (.of_memory (ptr.store_memory mid vaddr data))
  unfold amoExecute
  dsimp only
  split
  · exact .of_same rfl rfl rfl rfl
  · split
    · have failed : Quiet vm { vm.writeReg (regField insn 7) 0 with lrsc := false } :=
        .of_same rfl rfl rfl rfl
      exact stored _ failed _
    · exact .of_same rfl rfl rfl rfl
  · exact stored _ (.writeReg vm _ _) _
  · exact stored _ (.writeReg vm _ _) _

theorem riscvEmulateAtomic_ordinary (size : Nat) (narrow : Bool) :
    Ordinary vm (riscvEmulateAtomic xl vm insn size narrow) := by
  unfold riscvEmulateAtomic
  dsimp only
  split
  · exact .illegal vm insn
  · split
    · exact .illegal vm insn
    · split
      · refine .of_result (riscvPtrTranslate_result vm _ size true _) (fun vm' out => by rw [out]) ?_
        intro ptr vm' out
        rw [out]
        exact amoExecute_quiet xl vm' insn size _ _ ptr
      · exact .trap vm _ _

theorem dwcasExecute_quiet (vaddr : Addr) (ptr : RmwPtr) : Quiet vm (dwcasExecute xl vm insn vaddr ptr) := by
  refine Quiet.trans ?_ (.of_memory (ptr.store_memory _ vaddr _))
  split
  · exact .refl vm
  · exact (Quiet.writeReg vm _ _).trans (.writeReg _ _ _)

theorem riscvEmulateAtomicDwcas_ordinary : Ordinary vm (riscvEmulateAtomicDwcas xl vm insn) := by
  unfold riscvEmulateAtomicDwcas
  dsimp only
  split
  · exact .illegal vm insn
  · split
    · refine .of_result (riscvPtrTranslate_result vm _ _ true .write) (fun vm' out => by rw [out]) ?_
      intro ptr vm' out
      rw [out]
      exact dwcasExecute_quiet xl vm' insn _ ptr
    · exact .trap vm _ _

theorem riscvEmulateAOpcAmo_ordinary : Ordinary vm (riscvEmulateAOpcAmo xl vm insn) := by
  unfold riscvEmulateAOpcAmo
  split <;> first
    | exact riscvEmulateAtomic_ordinary _ vm insn _ _
    | exact riscvEmulateAtomicDwcas_ordinary _ vm insn
    | exact .illegal vm insn

end Atomics

/-! Floating point: a case that returns has written its result, and one that does not has left
the hart alone, with one exception. -/

section Float
variable (lib : FpuLib) (vm : Hart δ) (insn : BitVec 32)

inductive FpuCase (vm : Hart δ) : Bool × Hart δ → Prop
  | returned {r : Hart δ} (quiet : Quiet vm r) : FpuCase vm (true, r)
  | illegal : FpuCase vm (false, vm)

/-- The fields of `fcvtmod.w.d`. -/
structure Fcvtmod (insn : BitVec 32) : Prop where
  funct7 : (insn >>> 25).toNat = 0x61
  rs2 : (regField insn 20).toNat = 0x08
  rm : (bitExtU32 insn 12 3).toNat = 1

def fcvtmodResult : Hart δ :=
  let out := lib.fcvtF64ToI32 (riscvReadD vm (regField insn 15))
  riscvWriteInt vm (regField insn 7) (out.1.signExtend 64, out.2)

section
variable (vm : Hart δ) (reg : BitVec 5)

theorem FpuCase.writeS (out : BitVec 32 × BitVec 32) :
    FpuCase vm (true, riscvWriteS vm reg out) := .returned (.emitS vm reg _)

theorem FpuCase.writeD (out : BitVec 64 × BitVec 32) :
    FpuCase vm (true, riscvWriteD vm reg out) := .returned (.emitD vm reg _)

theorem FpuCase.emitS (out : BitVec 32 × BitVec 32) :
    FpuCase vm (true, riscvEmitS vm reg out) := .returned (.emitS vm reg out)

theorem FpuCase.emitD (out : BitVec 64 × BitVec 32) :
    FpuCase vm (true, riscvEmitD vm reg out) := .returned (.emitD vm reg out)

theorem FpuCase.writeInt (out : BitVec 64 × BitVec 32) :
    FpuCase vm (true, riscvWriteInt vm reg out) := .returned ((Quiet.accrue vm out.2).trans (.writeReg _ reg _))

theorem FpuCase.writeReg (data : BitVec 64) :
    FpuCase vm (true, vm.writeReg reg data) := .returned (.writeReg vm reg data)

end

theorem FpuCase.roundS (vm : Hart δ) (flags : BitVec 32) (reg : BitVec 5) (out : BitVec 32 × BitVec 32) :
    FpuCase vm (true, riscvEmitS (vm.accrue flags) reg out) :=
  .returned ((Quiet.accrue vm flags).trans (.emitS _ reg out))

theorem FpuCase.roundD (vm : Hart δ) (flags : BitVec 32) (reg : BitVec 5) (out : BitVec 64 × BitVec 32) :
    FpuCase vm (true, riscvEmitD (vm.accrue flags) reg out) :=
  .returned ((Quiet.accrue vm flags).trans (.emitD _ reg out))

theorem fpuOpCase_cases (round : FpuRound) :
    FpuCase vm (fpuOpCase lib vm insn round) ∨
      (Fcvtmod insn ∧ fpuOpCase lib vm insn round = (false, fcvtmodResult lib vm insn)) := by
  unfold fpuOpCase
  dsimp only
  split
  case h_14 funct7 =>
    split
    · split
      next fmt known => exact .inl (.writeInt vm _ _)
      next unknown =>
        split
        next fields => exact .inr ⟨⟨funct7, fields.1, fields.2⟩, rfl⟩
        · exact .inl .illegal
    · exact .inl .illegal
  all_goals left
  all_goals
    repeat' split
    all_goals with_reducible first
      | exact .writeS vm _ _
      | exact .writeD vm _ _
      | exact .emitS vm _ _
      | exact .emitD vm _ _
      | exact .writeInt vm _ _
      | exact .writeReg vm _ _
      | exact .roundS vm _ _ _
      | exact .roundD vm _ _ _
      | exact .illegal

theorem riscvEmulateFOpcOp_cases :
    Ordinary vm (riscvEmulateFOpcOp lib vm insn) ∨
      (Fcvtmod insn ∧ riscvFpuIsEnabled vm = true ∧
        riscvEmulateFOpcOp lib vm insn = riscvIllegalInsn (fcvtmodResult lib vm insn) insn) := by
  unfold riscvEmulateFOpcOp
  split
  next enabled =>
    rcases fpuOpCase_cases lib vm insn (fpuRound vm insn) with ended | ⟨fields, out⟩
    · left
      revert ended
      generalize fpuOpCase lib vm insn (fpuRound vm insn) = out
      intro ended
      cases ended with
      | returned quiet => exact .quiet quiet
      | illegal => exact .illegal vm insn
    · exact .inr ⟨fields, enabled, by rw [out]⟩
  · exact .inl (.illegal vm insn)

theorem riscvEmulateFFma_ordinary (negProduct negAddend : Bool) :
    Ordinary vm (riscvEmulateFFma lib vm insn negProduct negAddend) := by
  unfold riscvEmulateFFma
  split
  · split
    · exact .quiet (.emitS vm _ _)
    · exact .quiet (.emitD vm _ _)
    · exact .illegal vm insn
  · exact .illegal vm insn

end Float

/-! Privileged instructions. -/

section System
variable (how : Fetched) (vm : Hart δ) (insn : BitVec 32)

theorem riscvEmulateCsr_ordinary (val : BitVec 64) (op : CsrOp) :
    Ordinary vm (riscvEmulateCsr how vm insn val op) := by
  unfold riscvEmulateCsr
  dsimp only
  split
  · have effect := riscvCsrOp_effect vm (insn.extractLsb' 20 12) val op
    exact .quiet ((Quiet.of_effect effect).trans (.writeReg _ _ _))
  next failed =>
    rw [riscvCsrOp_failed vm _ val op (by simpa using failed)]
    exact .illegal vm _

theorem riscvSfenceVma_quiet (rs1 : BitVec 5) : Quiet vm (riscvSfenceVma vm rs1) := by
  unfold riscvSfenceVma riscvTlbFlushPage
  split
  · dsimp only
    split <;> exact .of_same rfl rfl rfl rfl
  · exact .of_same rfl rfl rfl rfl

theorem riscvEmulateSystemOther_ordinary : Ordinary vm (riscvEmulateSystemOther how vm insn) := by
  unfold riscvEmulateSystemOther
  split
  · split
    · exact .quiet (riscvSfenceVma_quiet vm _)
    · exact .illegal vm _
  iterate 3 exact riscvEmulateCsr_ordinary how vm insn _ _
  · split
    · exact .quiet (.refl vm)
    · exact .illegal vm _
  iterate 3 exact riscvEmulateCsr_ordinary how vm insn _ _
  · exact .illegal vm _

/-- The two instructions that lower the privilege. -/
inductive Returned : Hart δ → Prop
  | sret (word : insn = 0x10200073#32) (allowed : riscvMstatusAllowed vm 22 = true) :
      Returned (riscvSret how vm)
  | mret (word : insn = 0x30200073#32) (machine : vm.privMode = .machine) : Returned (riscvMret how vm)

theorem riscvEmulateOpcSystem_cases :
    Ordinary vm (riscvEmulateOpcSystem how vm insn) ∨
      Returned how vm insn (riscvEmulateOpcSystem how vm insn) := by
  have other : Ordinary vm (riscvEmulateSystemOther how vm insn) := riscvEmulateSystemOther_ordinary how vm insn
  have kept : Ordinary vm vm := .quiet (.refl vm)
  unfold riscvEmulateOpcSystem
  split
  · exact .inl (.trap vm _ 0)
  · exact .inl (.breakpoint vm)
  next word =>
    split
    next allowed => exact .inr (.sret (eq_of_toNat_eq word) allowed)
    · exact .inl other
  next word =>
    split
    next machine => exact .inr (.mret (eq_of_toNat_eq word) machine)
    · exact .inl other
  · split
    · exact .inl kept
    · exact .inl other
  · exact .inl kept
  · exact .inl kept
  · exact .inl other

end System

/-! Compressed instructions. -/

section Compressed
variable (xl : Xlen) (vm : Hart δ) (insn : BitVec 32)

theorem riscvEmulateCC0_ordinary : Ordinary vm (riscvEmulateCC0 xl vm insn) := by
  unfold riscvEmulateCC0
  dsimp only
  split
  all_goals
    repeat' split
    all_goals with_reducible first
      | exact .load _ vm _ _
      | exact .loadFloat vm _ _
      | exact .loadDouble vm _ _
      | exact .store _ vm _ _
      | exact .storeFloat vm _ _
      | exact .storeDouble vm _ _
      | exact .write _ vm _ _
      | exact .illegal vm _

theorem riscvEmulateCC1Alu_ordinary : Ordinary vm (riscvEmulateCC1Alu xl vm insn) := by
  unfold riscvEmulateCC1Alu
  split
  · exact .writeReg vm _ _
  · exact .writeReg vm _ _
  · exact .writeReg vm _ _
  · exact .computed vm _ _ _

theorem riscvEmulateCC1_ordinary : Ordinary vm (riscvEmulateCC1 xl vm insn) := by
  have kept : Ordinary vm vm := .quiet (.refl vm)
  have jumped (off : BitVec 32) : Ordinary vm (cJump xl vm off) := .jump xl vm _
  unfold riscvEmulateCC1
  dsimp only
  split
  all_goals
    repeat' split
    all_goals with_reducible first
      | exact .write _ vm _ _
      | exact kept
      | exact jumped _
      | exact .link _ vm _ _ _
      | exact riscvEmulateCC1Alu_ordinary _ vm insn

theorem riscvEmulateCC2_ordinary : Ordinary vm (riscvEmulateCC2 xl vm insn) := by
  have jumped (reg : BitVec 5) : Ordinary vm (cJumpReg xl vm reg) := .jump xl vm _
  have linked (reg : BitVec 5) :
      Ordinary vm (cJumpReg xl (riscvWriteReg xl vm 1 (riscvReadPc xl vm + 2)) reg) := .link xl vm _ _ _
  unfold riscvEmulateCC2
  dsimp only
  split
  all_goals
    repeat' split
    all_goals with_reducible first
      | exact .load _ vm _ _
      | exact .loadFloat vm _ _
      | exact .loadDouble vm _ _
      | exact .store _ vm _ _
      | exact .storeFloat vm _ _
      | exact .storeDouble vm _ _
      | exact .write _ vm _ _
      | exact jumped _
      | exact linked _
      | exact .breakpoint vm
      | exact .illegal vm _

end Compressed

/-! All instructions. -/

section Dispatch
variable (lib : FpuLib) (xl : Xlen) (vm : Hart δ) (insn : BitVec 32)

/-- How an instruction of any kind ends, before the program counter is advanced. -/
inductive Outcome : Hart δ → Prop
  | ordinary {r : Hart δ} (ordinary : Ordinary vm r) : Outcome r
  | returned {r : Hart δ} (returned : Returned ⟨4, insn⟩ vm insn r) : Outcome r
  | fcvtmod (opcode : (insn &&& 0x7C#32).toNat = 0x50) (long : insn &&& 0x3#32 = 0x3#32)
      (fields : Fcvtmod insn) (enabled : riscvFpuIsEnabled vm = true) :
      Outcome (riscvIllegalInsn (fcvtmodResult lib vm insn) insn)

theorem riscvEmulateI_outcome (long : insn &&& 0x3#32 = 0x3#32) :
    Outcome lib vm insn (riscvEmulateI lib xl ⟨4, insn⟩ vm insn) := by
  unfold riscvEmulateI
  split
  case h_17 opcode =>
    rcases riscvEmulateFOpcOp_cases lib vm insn with ordinary | ⟨fields, enabled, result⟩
    · exact .ordinary ordinary
    · rw [result]
      exact .fcvtmod opcode long fields enabled
  case h_21 =>
    rcases riscvEmulateOpcSystem_cases ⟨4, insn⟩ vm insn with ordinary | returned
    · exact .ordinary ordinary
    · exact .returned returned
  all_goals refine .ordinary ?_
  · exact riscvEmulateIOpcLoad_ordinary _ _ vm insn
  · exact riscvEmulateFOpcLoad_ordinary _ _ vm insn
  · exact riscvEmulateOpcMiscMem_ordinary _ vm insn
  · exact riscvEmulateIOpcImm_ordinary _ _ vm insn
  · exact .writeReg vm _ _
  · exact riscvEmulateIOpcImm32_ordinary _ vm insn
  · exact riscvEmulateIOpcStore_ordinary _ _ vm insn
  · exact riscvEmulateFOpcStore_ordinary _ _ vm insn
  · exact riscvEmulateAOpcAmo_ordinary _ vm insn
  · exact riscvEmulateIOpcOp_ordinary _ _ vm insn
  · exact .writeReg vm _ _
  · exact riscvEmulateIOpcOp32_ordinary _ vm insn
  iterate 4 exact riscvEmulateFFma_ordinary lib vm insn _ _
  · exact riscvEmulateIOpcBranch_ordinary _ _ vm insn
  · exact riscvEmulateIJalr_ordinary _ _ vm insn
  · exact riscvEmulateIJal_ordinary _ _ vm insn
  · exact .illegal vm _

theorem riscvEmulateInsn_outcome :
    ∃ r len, riscvEmulateInsn lib xl vm insn = r.advance len ∧ Outcome lib vm insn r := by
  unfold riscvEmulateInsn
  split
  · exact ⟨_, _, rfl, .ordinary (riscvEmulateCC0_ordinary xl vm insn)⟩
  · exact ⟨_, _, rfl, .ordinary (riscvEmulateCC1_ordinary xl vm insn)⟩
  · exact ⟨_, _, rfl, .ordinary (riscvEmulateCC2_ordinary xl vm insn)⟩
  next not0 not1 not2 =>
    have long : insn &&& 0x3#32 = 0x3#32 := by
      apply eq_of_toNat_eq
      have below : (insn &&& 0x3#32).toNat ≤ 3 := by
        exact Nat.and_le_right
      revert below not0 not1 not2
      generalize (insn &&& 0x3#32).toNat = low
      intro (not0 : low ≠ 0) (not1 : low ≠ 1) (not2 : low ≠ 2) below
      show low = 3
      omega
    exact ⟨_, _, rfl, riscvEmulateI_outcome lib xl vm insn long⟩

end Dispatch

end Rvvm
