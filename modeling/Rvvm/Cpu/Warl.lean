import Rvvm.Cpu.Confinement

/-! Legality of the privilege and of the fields that take only some values, in every state a hart
reaches by instructions, compiled blocks, traps, interrupts and resets of the machine. -/
namespace Rvvm
open BitVec

variable {δ : Type}

structure WarlLegal (vm : Hart δ) : Prop where
  priv : vm.privMode ≠ .hypervisor
  csr : vm.csr.Legal vm.machineRv64

structure KeepsLegal (vm r : Hart δ) : Prop where
  machineRv64 : r.machineRv64 = vm.machineRv64
  skips : vm.csr.SkipsHypervisor → r.csr.SkipsHypervisor
  legal : vm.csr.SkipsHypervisor → WarlLegal vm → WarlLegal r

namespace KeepsLegal

variable {vm r : Hart δ}

theorem of_warl (machineRv64 : r.machineRv64 = vm.machineRv64)
    (warl : WarlKept vm.machineRv64 vm.csr r.csr)
    (priv : vm.csr.SkipsHypervisor → WarlLegal vm → r.privMode ≠ .hypervisor) : KeepsLegal vm r where
  machineRv64 := machineRv64
  skips := warl.skips
  legal := by
    intro skips legal
    refine ⟨priv skips legal, ?_⟩
    rw [machineRv64]
    exact warl.legal legal.csr

theorem of_same (machineRv64 : r.machineRv64 = vm.machineRv64) (csr : r.csr = vm.csr)
    (priv : r.privMode = vm.privMode) : KeepsLegal vm r := by
  refine of_warl machineRv64 (csr ▸ .refl _) fun _ legal => ?_
  rw [priv]
  exact legal.priv

theorem refl (vm : Hart δ) : KeepsLegal vm vm := of_same rfl rfl rfl

theorem trans {a b c : Hart δ} (first : KeepsLegal a b) (second : KeepsLegal b c) : KeepsLegal a c where
  machineRv64 := second.machineRv64.trans first.machineRv64
  skips := second.skips ∘ first.skips
  legal := fun skips legal => second.legal (first.skips skips) (first.legal skips legal)

theorem of_quiet (quiet : Quiet vm r) : KeepsLegal vm r := by
  refine of_warl quiet.machineRv64 quiet.warl fun _ legal => ?_
  rw [quiet.priv]
  exact legal.priv

theorem of_memory (memory : OnlyMemory vm r) : KeepsLegal vm r := of_quiet (.of_memory memory)

end KeepsLegal

/-! Traps and interrupts. -/

section Traps
variable (vm : Hart δ)

theorem riscvSwitchPriv_machineRv64 (priv : Priv) : (riscvSwitchPriv vm priv).machineRv64 = vm.machineRv64 := by
  rcases riscvSwitchPriv_cases vm priv with ⟨-, kept⟩ | ⟨-, rv64, switched⟩
  · rw [kept]
  · rw [switched]
    rfl

theorem riscvTrapPrivHelper_legal {machineRv64 : Bool} (target : Priv) (named : vm.privMode ≠ .hypervisor)
    (legal : StatusLegal machineRv64 vm.csr.status) :
    StatusLegal machineRv64 (riscvTrapPrivHelper vm target).csr.status := by
  cases target with
  | user => exact (legal.bitReplace _ (by decide)).bitReplace _ (by decide)
  | supervisor | hypervisor =>
    exact ((legal.bitReplace _ (by decide)).bitReplace _ (by decide)).bitReplace _ (by decide)
  | machine => exact ((legal.setMpp named).bitReplace _ (by decide)).bitReplace _ (by decide)

theorem entered_keepsLegal {vm mid : Hart δ} (target : Priv) (machineRv64 : mid.machineRv64 = vm.machineRv64)
    (priv : mid.privMode = vm.privMode) (warl : WarlKept vm.machineRv64 vm.csr mid.csr)
    (named : vm.csr.SkipsHypervisor → WarlLegal vm → target ≠ .hypervisor) :
    KeepsLegal vm (riscvSwitchPriv (riscvTrapPrivHelper mid target) target) := by
  obtain ⟨status, helper⟩ := riscvTrapPrivHelper_eq mid target
  have csr : (riscvSwitchPriv (riscvTrapPrivHelper mid target) target).csr =
      { mid.csr with status := status } := by
    rw [riscvSwitchPriv_csr, helper]
    rfl
  have same : (riscvSwitchPriv (riscvTrapPrivHelper mid target) target).machineRv64 = vm.machineRv64 := by
    rw [riscvSwitchPriv_machineRv64, helper]
    exact machineRv64
  refine ⟨same, ?_, fun skips legal => ⟨?_, ?_⟩⟩
  · intro skips
    rw [csr]
    exact ⟨(warl.skips skips).edeleg, (warl.skips skips).ideleg⟩
  · rw [riscvSwitchPriv_priv]
    exact named skips legal
  · have own := riscvTrapPrivHelper_legal mid target (priv ▸ legal.priv) (warl.legal legal.csr).status
    rw [helper] at own
    rw [same, csr]
    exact (WarlKept.setStatus mid.csr fun _ => own).legal (warl.legal legal.csr)

theorem TrapCause.code_lt (cause : TrapCause) : cause.code < 32 := by
  cases cause <;> decide

/-- Exceptions that M-mode delegates pass H-mode by. -/
theorem trapTarget_named {vm : Hart δ} (skips : vm.csr.SkipsHypervisor) (named : vm.privMode ≠ .hypervisor)
    (cause : TrapCause) : Priv.ofCode (trapTarget vm cause Priv.machine.code) ≠ .hypervisor := by
  have skipped : (vm.csr.edeleg (.ofCode 2)).getLsbD cause.code = true := by
    show (vm.csr.edeleg .hypervisor).getLsbD cause.code = true
    rw [skips.edeleg]
    have low : ∀ i < 32, (0xFFFFFFFF#64).getLsbD i = true := by decide
    exact low _ cause.code_lt
  show Priv.ofCode (trapTarget vm cause (2 + 1)) ≠ _
  unfold trapTarget
  split
  next delegated =>
    have below : vm.privMode.code < 1 + 1 := by
      have three := delegated.1
      revert three named
      cases vm.privMode <;> decide
    unfold trapTarget
    rw [if_pos ⟨below, skipped⟩]
    unfold trapTarget
    split
    · exact Priv.noConfusion
    · exact Priv.noConfusion
  · exact Priv.noConfusion

theorem riscvTrap_keepsLegal (cause : TrapCause) (tval : BitVec 64) : KeepsLegal vm (riscvTrap vm cause tval) := by
  unfold riscvTrap
  split
  · exact .refl vm
  split
  · exact .of_warl rfl (.of_same rfl rfl rfl rfl) fun _ legal => legal.priv
  · have entered : KeepsLegal vm (riscvSwitchPriv (riscvTrapPrivHelper (vm.writeTrapInfo
        (.ofCode (trapTarget vm cause Priv.machine.code)) (BitVec.ofNat 64 cause.code) tval)
        (.ofCode (trapTarget vm cause Priv.machine.code)))
        (.ofCode (trapTarget vm cause Priv.machine.code))) := by
      refine entered_keepsLegal _ rfl rfl (.of_same rfl rfl rfl rfl) fun skips legal => ?_
      exact trapTarget_named skips legal.priv cause
    exact entered.trans (.of_same rfl rfl rfl)

theorem irqTarget_named {csr : Csr} (skips : csr.SkipsHypervisor) (pending : BitVec 32) :
    Priv.ofCode (irqTarget csr Priv.machine.code (pending.setWidth 64)).1 ≠ .hypervisor := by
  have none (others : BitVec 64) : pending.setWidth 64 &&& others &&& ~~~ csr.ideleg (.ofCode (1 + 1)) = 0 := by
    show _ &&& ~~~ csr.ideleg .hypervisor = _
    rw [skips.ideleg]
    apply eq_of_getLsbD_eq
    intro i below
    have high : ∀ i < 64, (~~~ 0xFFFFFFFF#64).getLsbD i = true → 32 ≤ i := by decide
    rw [getLsbD_and, getLsbD_and, getLsbD_setWidth]
    by_cases inside : (~~~ 0xFFFFFFFF#64).getLsbD i = true
    · rw [getLsbD_of_ge pending i (high i below inside)]
      simp
    · rw [Bool.eq_false_iff.mpr inside]
      simp
  show Priv.ofCode (irqTarget csr (2 + 1) _).1 ≠ _
  unfold irqTarget
  dsimp only
  split
  · exact Priv.noConfusion
  unfold irqTarget
  rw [none, if_neg (by simp)]
  unfold irqTarget
  dsimp only
  split
  · exact Priv.noConfusion
  · exact Priv.noConfusion

theorem writeTrapInfo_keepsLegal (priv : Priv) (cause tval pc : BitVec 64) :
    KeepsLegal vm { vm.writeTrapInfo priv cause tval with pc := pc } :=
  .of_warl rfl (.of_same rfl rfl rfl rfl) fun _ legal => legal.priv

theorem riscvHandleIrqs_keepsLegal : KeepsLegal vm (riscvHandleIrqs vm) := by
  unfold riscvHandleIrqs
  dsimp only
  split
  · exact .refl vm
  split
  · exact .refl vm
  split
  · exact .refl vm
  · refine KeepsLegal.trans ?_ (writeTrapInfo_keepsLegal _ _ _ _ _)
    exact entered_keepsLegal _ rfl rfl (.refl _) fun skips _ => irqTarget_named skips _

theorem riscvHartCheckInterrupts_keepsLegal : KeepsLegal vm (riscvHartCheckInterrupts vm) := by
  unfold riscvHartCheckInterrupts
  split
  · exact .of_same rfl rfl rfl
  · exact .refl vm

theorem back_keepsLegal {status : BitVec 64} (pc : Addr) (nextPriv : Priv)
    (kept : StatusLegal vm.machineRv64 vm.csr.status → StatusLegal vm.machineRv64 status)
    (named : WarlLegal vm → nextPriv ≠ .hypervisor) :
    KeepsLegal vm (riscvHartCheckInterrupts (riscvSwitchPriv { vm.setStatus status with pc := pc } nextPriv)) := by
  refine KeepsLegal.trans ?_ (riscvHartCheckInterrupts_keepsLegal _)
  refine .of_warl ?_ ?_ fun _ legal => ?_
  · rw [riscvSwitchPriv_machineRv64]
    rfl
  · rw [riscvSwitchPriv_csr]
    exact .setStatus vm.csr kept
  · rw [riscvSwitchPriv_priv]
    exact named legal

theorem StatusLegal.clearMprv {machineRv64 : Bool} {status : BitVec 64} (legal : StatusLegal machineRv64 status) :
    StatusLegal machineRv64 (status &&& ~~~ (1#64 <<< 17)) := by
  refine legal.of_same ?_ ?_ ?_
  all_goals exact bitCut_congr (by decide) (by simp) (by simp)

theorem Returned.keepsLegal {vm r : Hart δ} {insn : BitVec 32} (returned : Returned ⟨4, insn⟩ vm insn r) :
    KeepsLegal vm r := by
  cases returned with
  | sret word allowed =>
    refine back_keepsLegal vm _ _ (fun legal => ?_) fun _ => ?_
    · exact ((legal.bitReplace _ (by decide)).bitReplace _ (by decide)).bitReplace _ (by decide)
    · rcases spp_low vm.csr.status with named | named <;> rw [named] <;> decide
  | mret word machine =>
    refine back_keepsLegal vm _ _ (fun legal => ?_) fun legal => ?_
    · have lowered {p : Prop} [Decidable p] : StatusLegal vm.machineRv64
          (if p then vm.csr.status &&& ~~~ (1#64 <<< 17) else vm.csr.status) := by
        split
        · exact legal.clearMprv
        · exact legal
      exact ((lowered.setMpp Priv.noConfusion).bitReplace _ (by decide)).bitReplace _ (by decide)
    · intro named
      refine legal.csr.status.mpp (eq_of_toNat_eq ?_)
      revert named
      match (bitCut vm.csr.status 11 2).toNat with
      | 0 | 1 | _ + 3 => nofun
      | 2 => exact fun _ => rfl

end Traps

theorem Ordinary.keepsLegal {vm r : Hart δ} (ordinary : Ordinary vm r) : KeepsLegal vm r := by
  cases ordinary with
  | quiet quiet => exact .of_quiet quiet
  | trapped memory cause tval => exact (KeepsLegal.of_memory memory).trans (riscvTrap_keepsLegal _ cause tval)
  | halted halts => exact .of_same rfl rfl rfl

theorem riscvEmulateInsn_keepsLegal (lib : FpuLib) (xl : Xlen) (vm : Hart δ) (insn : BitVec 32) :
    KeepsLegal vm (riscvEmulateInsn lib xl vm insn) := by
  obtain ⟨r, len, result, outcome⟩ := riscvEmulateInsn_outcome lib xl vm insn
  rw [result]
  have advanced : KeepsLegal r (r.advance len) := .of_same rfl rfl rfl
  refine KeepsLegal.trans ?_ advanced
  cases outcome with
  | ordinary ordinary => exact ordinary.keepsLegal
  | returned returned => exact returned.keepsLegal
  | fcvtmod opcode long fields enabled =>
    have written : KeepsLegal vm (fcvtmodResult lib vm insn) := .of_same rfl rfl rfl
    exact written.trans (riscvTrap_keepsLegal _ _ _)

theorem riscvHartStep_keepsLegal (lib : FpuLib) (vm : Hart δ) (event : HartEvent δ) :
    KeepsLegal vm (riscvHartStep lib vm event) := by
  cases event with
  | fetch =>
    unfold riscvHartStep
    have fetched := riscvFetchInsn_result vm vm.pc
    generalize riscvFetchInsn vm vm.pc = out at fetched ⊢
    cases fetched with
    | done value memory => exact .of_memory memory
    | faulted memory cause tval may =>
      exact (KeepsLegal.of_memory memory).trans (riscvTrap_keepsLegal _ cause tval)
    | refused memory => exact .of_memory memory
  | insn word =>
    have zeroed : KeepsLegal vm vm.zeroX0 := .of_same rfl rfl rfl
    exact zeroed.trans (riscvEmulateInsn_keepsLegal lib _ vm.zeroX0 word)
  | takeTrap =>
    unfold riscvHartStep
    dsimp only
    split
    · exact .of_same rfl rfl rfl
    · exact .refl vm
  | handleIrqs => exact riscvHandleIrqs_keepsLegal vm
  | outside change => exact .of_same rfl rfl rfl

/-- What a reset of the machine does to a hart. The compiled blocks, which it flushes as well, are
not part of the hart. -/
def rvvmResetHart (vm : Hart δ) (hartid : BitVec 32) (fdtAddr resetPc : Addr) : Hart δ :=
  let vm := { vm with
    csr := { vm.csr with
      status := 0
      cause := Function.update vm.csr.cause .machine 0
      hartid := hartid }
    lrsc := false
    registers := Function.update (Function.update vm.registers 10 (hartid.setWidth 64)) 11 fdtAddr
    pc := resetPc }
  let vm := riscvSwitchPriv vm .machine
  if vm.jitEnabled then riscvJitTlbFlush vm else vm

/-- A reset, a part of `riscv_hart_run`, or a compiled block, which changes registers, program counter
and guest memory, whatever it makes of them. -/
inductive CpuEvent (δ : Type)
  | reset (hartid : BitVec 32) (fdtAddr resetPc : Addr)
  | hart (event : HartEvent δ)
  | block (registers : BitVec 5 → BitVec 64) (pc : Addr) (host : HostMem)

def cpuStep (lib : FpuLib) (vm : Hart δ) : CpuEvent δ → Hart δ
  | .reset hartid fdtAddr resetPc => rvvmResetHart vm hartid fdtAddr resetPc
  | .hart event => riscvHartStep lib vm event
  | .block registers pc host => { vm with registers := registers, pc := pc, host := host }

def ResetsWide (vm : Hart δ) : CpuEvent δ → Prop
  | .reset _ _ _ => vm.machineRv64 = true
  | _ => False

theorem rvvmResetHart_fields (vm : Hart δ) (hartid : BitVec 32) (fdtAddr resetPc : Addr) :
    (rvvmResetHart vm hartid fdtAddr resetPc).machineRv64 = vm.machineRv64 ∧
      (rvvmResetHart vm hartid fdtAddr resetPc).privMode = .machine ∧
        (rvvmResetHart vm hartid fdtAddr resetPc).csr = { vm.csr with
          status := 0
          cause := Function.update vm.csr.cause .machine 0
          hartid := hartid } := by
  unfold rvvmResetHart
  dsimp only
  refine ⟨?_, ?_, ?_⟩
  · split <;> exact riscvSwitchPriv_machineRv64 _ _
  · split <;> exact riscvSwitchPriv_priv _ _
  · split <;> exact riscvSwitchPriv_csr _ _

theorem statusLegal_zero (machineRv64 : Bool) : StatusLegal machineRv64 0 ↔ machineRv64 = false := by
  constructor
  · intro legal
    cases machineRv64 with
    | false => rfl
    | true => exact absurd (legal.uxl rfl) (by decide)
  · rintro rfl
    exact ⟨by decide, nofun, nofun⟩

theorem rvvmResetHart_legal (vm : Hart δ) (hartid : BitVec 32) (fdtAddr resetPc : Addr) (legal : WarlLegal vm) :
    WarlLegal (rvvmResetHart vm hartid fdtAddr resetPc) ↔ vm.machineRv64 = false := by
  obtain ⟨machineRv64, priv, csr⟩ := rvvmResetHart_fields vm hartid fdtAddr resetPc
  constructor
  · intro after
    have status := after.csr.status
    rw [machineRv64, csr] at status
    exact (statusLegal_zero _).mp status
  · intro narrow
    refine ⟨by rw [priv]; exact Priv.noConfusion, ?_⟩
    rw [machineRv64, csr]
    exact ⟨(statusLegal_zero _).mpr narrow, legal.csr.tvec, legal.csr.medeleg, legal.csr.mideleg⟩

section
variable (lib : FpuLib) (vm : Hart δ) (event : CpuEvent δ) (skips : vm.csr.SkipsHypervisor)
include lib vm event skips

theorem cpuStep_skips :
    (cpuStep lib vm event).csr.SkipsHypervisor := by
  cases event with
  | reset hartid fdtAddr resetPc =>
    show (rvvmResetHart vm hartid fdtAddr resetPc).csr.SkipsHypervisor
    rw [(rvvmResetHart_fields vm hartid fdtAddr resetPc).2.2]
    exact ⟨skips.edeleg, skips.ideleg⟩
  | hart event => exact (riscvHartStep_keepsLegal lib vm event).skips skips
  | block registers pc host => exact skips

theorem cpuStep_legal
    (legal : WarlLegal vm) : WarlLegal (cpuStep lib vm event) ↔ ¬ ResetsWide vm event := by
  cases event with
  | reset hartid fdtAddr resetPc =>
    show WarlLegal (rvvmResetHart vm hartid fdtAddr resetPc) ↔ ¬ vm.machineRv64 = true
    rw [rvvmResetHart_legal vm hartid fdtAddr resetPc legal, Bool.not_eq_true]
  | hart event => exact iff_of_true ((riscvHartStep_keepsLegal lib vm event).legal skips legal) not_false
  | block registers pc host => exact iff_of_true ⟨legal.priv, legal.csr⟩ not_false
end

theorem riscvCsrInit_legal (rv64 : Bool) (hartid : BitVec 32) : (riscvCsrInit rv64 hartid).Legal rv64 := by
  have direct : TvecLegal 0 := .inl (by decide)
  have none (mask : BitVec 64) :
      Function.update (fun _ : Priv => 0#64) .hypervisor 0xFFFFFFFF .machine &&& mask = 0 := zero_and
  refine ⟨?_, fun _ => direct, none _, none _⟩
  cases rv64 with
  | false => exact (statusLegal_zero false).mpr rfl
  | true =>
    have wide : StatusLegal true 0xA00000000 :=
      ⟨by decide, fun _ => .inr (by decide), fun _ => .inr (by decide)⟩
    exact wide

theorem riscvHartInit_legal (mem : GuestRam) (host : HostMem) (mmioDevs : List (MmioDev δ)) (devices : δ)
    (rv64 sv57Allowed : Bool) : WarlLegal (riscvHartInit mem host mmioDevs devices rv64 sv57Allowed) :=
  ⟨Priv.noConfusion, riscvCsrInit_legal rv64 0⟩

/-- In every run of a new hart, the privilege and all fields are legal in every state exactly if no
step is a reset of a 64-bit machine. -/
theorem warl_legal_iff {δ : Type} (lib : FpuLib) (mem : GuestRam) (host : HostMem) (mmioDevs : List (MmioDev δ))
    (devices : δ) (rv64 sv57Allowed : Bool) (events : List (CpuEvent δ)) :
    (∀ vm ∈ Runs.visited (cpuStep lib) (riscvHartInit mem host mmioDevs devices rv64 sv57Allowed) events,
      WarlLegal vm) ↔
      Runs.AllSteps (cpuStep lib) (fun vm event => ¬ ResetsWide vm event)
        (riscvHartInit mem host mmioDevs devices rv64 sv57Allowed) events := by
  have exactly (vm : Hart δ) (event : CpuEvent δ) (skips : vm.csr.SkipsHypervisor) (legal : WarlLegal vm) :
      WarlLegal (cpuStep lib vm event) ↔ ¬ ResetsWide vm event := cpuStep_legal lib vm event skips legal
  refine Runs.invariant_iff (cpuStep_skips lib) exactly events ⟨rfl, rfl⟩ ?_
  exact riscvHartInit_legal mem host mmioDevs devices rv64 sv57Allowed

/-- A reset of a 64-bit machine leaves `UXL` and `SXL` at 0, and an `mret` to user mode right after it
runs the user as RV32. -/
theorem reset_clears_widths :
    let reset := cpuStep default resetHart (.reset 0 0 0x80000000)
    let user := cpuStep default reset (.hart (.insn 0x30200073))
    resetHart.machineRv64 = true ∧ bitCut reset.csr.status 32 2 = 0 ∧ bitCut reset.csr.status 34 2 = 0 ∧
      user.privMode = .user ∧ user.rv64 = false ∧ ¬ WarlLegal reset := by
  intro reset user
  have uxl : bitCut reset.csr.status 32 2 = 0 := by decide +kernel
  refine ⟨rfl, uxl, by decide +kernel, by decide +kernel, by decide +kernel, ?_⟩
  intro legal
  have width := legal.csr.status.uxl (by decide +kernel)
  exact absurd width (by decide)

/-! The views of the supervisor. -/

section Views
variable {status next : BitVec 64} (same : next &&& ~~~ csrSstatusMask = status &&& ~~~ csrSstatusMask)
include same

/-- `MPP` and `SXL` lie outside the view. -/
theorem outside_view : bitCut next 11 2 = bitCut status 11 2 ∧ bitCut next 34 2 = bitCut status 34 2 := by
  have bit (i : Nat) (outside : (~~~ csrSstatusMask).getLsbD i = true) : next.getLsbD i = status.getLsbD i := by
    have here := congrArg (·.getLsbD i) same
    simpa [outside] using here
  exact ⟨bitCut_congr (by decide) (bit 11 (by decide)) (bit 12 (by decide)),
    bitCut_congr (by decide) (bit 34 (by decide)) (bit 35 (by decide))⟩

theorem statusWarl_view_iff (machineRv64 : Bool) :
    statusWarl machineRv64 next &&& ~~~ csrSstatusMask = status &&& ~~~ csrSstatusMask ↔
      bitCut status 11 2 ≠ Priv.hypervisor.bits ∧
        (machineRv64 = true → bitCut status 34 2 = 1 ∨ bitCut status 34 2 = 2) := by
  constructor
  · intro kept
    have legal := statusWarl_legal machineRv64 next
    obtain ⟨mpp, sxl⟩ := outside_view kept
    exact ⟨mpp ▸ legal.mpp, fun wide => sxl ▸ legal.sxl wide⟩
  · rintro ⟨mpp, sxl⟩
    obtain ⟨mpp', sxl'⟩ := outside_view same
    have valid : ¬ (machineRv64 && !riscvCsrStatusXlValid (bitCut status 34 2)) = true := by
      cases machineRv64 with
      | false => exact Bool.false_ne_true
      | true => simp [(riscvCsrStatusXlValid_iff _).mpr (sxl rfl)]
    unfold statusWarl
    dsimp only
    rw [bitReplace_kept _ _ _ _ (by decide), bitCut_ite_apart _ _ (by decide) (by decide),
      bitCut_ite_apart _ _ (by decide) (by decide), mpp', if_neg mpp, bitCut_ite_apart _ _ (by decide) (by decide),
      sxl', if_neg valid, ite_kept (by decide), same]

end Views

/-- What an access to a view of the supervisor leaves alone. -/
structure ViewKept (vm vm' : Hart δ) : Prop where
  status : vm'.csr.status &&& ~~~ csrSstatusMask = vm.csr.status &&& ~~~ csrSstatusMask
  ie : vm'.csr.ie &&& ~~~ csrSeipMask = vm.csr.ie &&& ~~~ csrSeipMask
  ip : vm'.csr.ip &&& ~~~ csrSeipMask = vm.csr.ip &&& ~~~ csrSeipMask

/-- The status word an operation on `sstatus` results in, before it is legalised. -/
def Hart.sstatusWritten (vm : Hart δ) (dest : BitVec 64) (op : CsrOp) : BitVec 64 :=
  let xs := max (bitCut vm.csr.status 13 2).toNat (bitCut vm.csr.status 9 2).toNat
  (riscvCsrHelperMasked vm.rv64 (bitReplace vm.csr.status 15 2 (BitVec.ofNat 64 xs)) dest csrSstatusMask op).1

/-- `MPP` is not the reserved value and, on a 64-bit machine, `SXL` names a width. -/
def Hart.OutsideLegal (vm : Hart δ) : Prop :=
  bitCut vm.csr.status 11 2 ≠ Priv.hypervisor.bits ∧
    (vm.machineRv64 = true → bitCut vm.csr.status 34 2 = 1 ∨ bitCut vm.csr.status 34 2 = 2)

theorem riscvCsrStatus_sstatus (vm : Hart δ) (dest : BitVec 64) (op : CsrOp) :
    (riscvCsrStatus vm dest csrSstatusMask op).vm.csr.status =
      if vm.sstatusWritten dest op = vm.csr.status then vm.csr.status
      else statusWarl vm.machineRv64 (vm.sstatusWritten dest op) := by
  unfold riscvCsrStatus Hart.sstatusWritten
  dsimp only
  rw [ite_not]
  split <;> rfl

theorem riscvCsrStatus_view_iff (vm : Hart δ) (dest : BitVec 64) (op : CsrOp) :
    (riscvCsrStatus vm dest csrSstatusMask op).vm.csr.status &&& ~~~ csrSstatusMask =
        vm.csr.status &&& ~~~ csrSstatusMask ↔
      (vm.sstatusWritten dest op ≠ vm.csr.status → vm.OutsideLegal) := by
  have inside : vm.sstatusWritten dest op &&& ~~~ csrSstatusMask = vm.csr.status &&& ~~~ csrSstatusMask := by
    rw [Hart.sstatusWritten, riscvCsrHelperMasked_outside, bitReplace_kept _ _ _ _ (by decide)]
  rw [riscvCsrStatus_sstatus]
  by_cases kept : vm.sstatusWritten dest op = vm.csr.status
  · rw [if_pos kept]
    exact iff_of_true rfl fun changed => absurd kept changed
  · rw [if_neg kept]
    exact (statusWarl_view_iff inside vm.machineRv64).trans ⟨fun legal _ => legal, fun legal => legal kept⟩

/-- Accesses to `sie` and `sip` always stay inside their masks, and those to `sstatus` exactly if they change nothing
or find `MPP` and, on a 64-bit machine, `SXL` legal. -/
theorem supervisor_views_confined_iff (vm : Hart δ) {id : BitVec 12} (view : id ∈ [0x100#12, 0x104#12, 0x144#12])
    (dest : BitVec 64) (op : CsrOp) :
    ViewKept vm (riscvCsrOp vm id dest op).vm ↔
      (id = 0x100#12 → vm.privMode ≠ .user → vm.sstatusWritten dest op ≠ vm.csr.status → vm.OutsideLegal) := by
  have plain : riscvCsrPrivilege id = 1 ∧ riscvCsrReadonly id = false := by
    revert view
    revert id
    decide
  by_cases user : vm.privMode = .user
  · have low : vm.privMode.code < riscvCsrPrivilege id := by
      rw [user, plain.1]
      decide
    rw [riscvCsrOp_privileged vm id dest op low]
    exact iff_of_true ⟨rfl, rfl, rfl⟩ fun _ other => absurd user other
  have admitted : ¬ vm.privMode.code < riscvCsrPrivilege id := by
    rw [plain.1]
    revert user
    cases vm.privMode <;> decide
  have access : (riscvCsrOp vm id dest op).vm = (riscvCsrOpInternal vm dest op id).vm := by
    rw [riscvCsrOp, plain.2, if_neg fun readonly => Bool.false_ne_true readonly.1, if_neg admitted]
  have checked (vm : Hart δ) : (riscvHartCheckInterrupts vm).csr = vm.csr := by
    unfold riscvHartCheckInterrupts
    split <;> rfl
  have kept (name : CsrName) (own : name.hasFile = true ∧ name.level = 1)
      (internal : (riscvCsrOp vm id dest op).vm = (riscvCsrAccess vm dest op name).vm) :
      ViewKept vm (riscvCsrOp vm id dest op).vm ↔
        (riscvCsrAccess vm dest op name).vm.csr.status &&& ~~~ csrSstatusMask =
          vm.csr.status &&& ~~~ csrSstatusMask := by
    have effect := riscvCsrAccess_effect vm dest op name own.1
    rw [own.2] at effect
    rw [internal]
    refine ⟨ViewKept.status, fun status => ⟨status, ?_, ?_⟩⟩
    · exact congrArg Shielded.ie effect.shield
    · exact congrArg Shielded.ip effect.shield
  simp only [List.mem_cons, List.not_mem_nil, or_false] at view
  rcases view with rfl | rfl | rfl
  · rw [kept .sstatus ⟨rfl, rfl⟩ access, forall_prop_of_true rfl, forall_prop_of_true user]
    exact riscvCsrStatus_view_iff vm dest op
  · rw [kept .sie ⟨rfl, rfl⟩ access]
    exact iff_of_true (congrArg (fun csr => csr.status &&& _) (checked _)) fun other => absurd other (by decide)
  · rw [kept .sip ⟨rfl, rfl⟩ access]
    exact iff_of_true (congrArg (fun csr => csr.status &&& _) (checked _)) fun other => absurd other (by decide)

theorem supervisor_views_confined_iff_resetHart :
    0x100#12 ∈ [0x100#12, 0x104#12, 0x144#12] ∧
      (riscvCsrOp resetHart 0x100 0x40000 .setbits).vm.csr.status = 0xA00040000 ∧
        ViewKept resetHart (riscvCsrOp resetHart 0x100 0x40000 .setbits).vm := by
  have legal : resetHart.OutsideLegal := ⟨by decide +kernel, fun _ => .inr (by decide +kernel)⟩
  exact ⟨by decide, by decide +kernel,
    (supervisor_views_confined_iff resetHart (by decide) _ _).mpr fun _ _ _ => legal⟩

/-- After a reset of a 64-bit machine the first change of `sstatus` also changes `SXL`. -/
theorem sstatus_changes_sxl :
    let reset := cpuStep default resetHart (.reset 0 0 0x80000000)
    let next := (riscvCsrOp reset 0x100 0x40000 .setbits).vm
    bitCut reset.csr.status 34 2 = 0 ∧ bitCut next.csr.status 34 2 = 2 ∧ ¬ ViewKept reset next := by
  intro reset next
  refine ⟨by decide +kernel, by decide +kernel, fun kept => ?_⟩
  exact absurd kept.status (by decide +kernel)

end Rvvm
