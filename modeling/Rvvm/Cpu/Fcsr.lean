import Rvvm.Cpu.CsrSafety

/-! The floating-point control registers, with the flags and the rounding mode the host holds. -/
namespace Rvvm
open BitVec (eq_of_getLsbD_eq getLsbD_and getLsbD_not getLsbD_or getLsbD_setWidth)

variable {δ : Type}

/-- The exceptions accrued are those recorded and those still in the host. -/
def Hart.fcsr (vm : Hart δ) : BitVec 32 := vm.csr.fcsr ||| vm.fpuExceptions

/-- `fcsr` after an operation on one of the registers, and the value handed back. -/
def fpOp (vm : Hart δ) (dest : BitVec 64) (op : CsrOp) (name : CsrName) : BitVec 32 × BitVec 64 :=
  if name = .frm then
    let (frm, old) := riscvCsrHelperMasked vm.rv64 (vm.csr.fcsr.setWidth 64 >>> 5) dest csrFrmMask op
    ((bitReplace (vm.csr.fcsr.setWidth 64) 5 3 frm).setWidth 32 ||| vm.fpuExceptions, old)
  else
    let mask := if name = .fflags then csrFflagsMask else csrFcsrMask
    let (fcsr, old) := riscvCsrHelperMasked vm.rv64 (vm.fcsr.setWidth 64) dest mask op
    (fcsr.setWidth 32, old)

/-- A swap, or a set or clear with an operand. -/
def CsrOp.Writes (op : CsrOp) (dest : BitVec 64) : Prop := op = .swap ∨ dest ≠ 0

instance (op : CsrOp) (dest : BitVec 64) : Decidable (op.Writes dest) := inferInstanceAs (Decidable (_ ∨ _))

def fcsrFlags (fcsr : BitVec 32) : BitVec 32 := bitExtU32 fcsr 0 5

def fcsrFrm (fcsr : BitVec 32) : BitVec 32 := bitExtU32 fcsr 5 3

structure FpAccessed (vm : Hart δ) (dest : BitVec 64) (op : CsrOp) (name : CsrName) (r : CsrResult δ) : Prop where
  ret : r.ret = true
  old : r.dest = (fpOp vm dest op name).2
  flags : (riscvCsrFflags r.vm 0 .setbits).dest = (fcsrFlags (fpOp vm dest op name).1).setWidth 64
  frm : fcsrFrm (fpOp vm dest op name).1 ≤ 4 → fcsrFrm r.vm.csr.fcsr = fcsrFrm (fpOp vm dest op name).1
  host : name ≠ .fflags → op.Writes dest → fcsrFrm (fpOp vm dest op name).1 ≤ 4 →
    r.vm.fpuRounding = fcsrFrm (fpOp vm dest op name).1
  dirty : op.Writes dest → r.vm.csr.fs = 3

/-- What an access must find: a dirty state, in a write of `fcsr` with a new mode above 4 the flags as they are, and
in a write of a mode up to 4 one that is new and that the host has, or that the host is in already. -/
structure FpExact (vm : Hart δ) (dest : BitVec 64) (op : CsrOp) (name : CsrName) : Prop where
  dirty : op.Writes dest → vm.csr.fs = 3
  flags : name = .fcsr → 4 < fcsrFrm (fpOp vm dest op name).1 →
    fcsrFrm (fpOp vm dest op name).1 ≠ fcsrFrm vm.csr.fcsr → fcsrFlags (fpOp vm dest op name).1 = fcsrFlags vm.fcsr
  host : name ≠ .fflags → op.Writes dest → fcsrFrm (fpOp vm dest op name).1 ≤ 4 →
    if fcsrFrm (fpOp vm dest op name).1 = fcsrFrm vm.csr.fcsr then
      vm.fpuRounding = fcsrFrm (fpOp vm dest op name).1
    else fcsrFrm (fpOp vm dest op name).1 ≠ 4

/-- The write clears a flag, and the host has raised a flag that is clear afterwards. -/
def LosesHost (old new exceptions : BitVec 32) : Prop :=
  ~~~ bitExtU32 new 0 5 &&& bitExtU32 old 0 5 ≠ 0 ∧ ~~~ bitExtU32 new 0 5 &&& exceptions ≠ 0

instance (old new exceptions : BitVec 32) : Decidable (LosesHost old new exceptions) :=
  inferInstanceAs (Decidable (_ ∧ _))

theorem not_losesHost {old new exceptions : BitVec 32} (same : fcsrFlags new = fcsrFlags old) :
    ¬ LosesHost old new exceptions := by
  rintro ⟨cleared, -⟩
  rw [show bitExtU32 new 0 5 = bitExtU32 old 0 5 from same, BitVec.and_comm, BitVec.and_not_self] at cleared
  exact cleared rfl

/-- The mode is neither the old one nor known to the host. -/
def Refused (old new : BitVec 32) : Prop := fcsrFrm new ≠ fcsrFrm old ∧ 4 < fcsrFrm new

instance (old new : BitVec 32) : Decidable (Refused old new) := inferInstanceAs (Decidable (_ ∧ _))

theorem riscvUpdateFcsr_eq (vm : Hart δ) (new : BitVec 32) :
    riscvUpdateFcsr vm vm.csr.fcsr new = if Refused vm.csr.fcsr new then vm else { vm with
      csr := { vm.csr with fcsr := new }
      fpuRounding := if fcsrFrm new = fcsrFrm vm.csr.fcsr then vm.fpuRounding else fpuSetRoundingMode (fcsrFrm new)
      fpuExceptions := if LosesHost vm.csr.fcsr new vm.fpuExceptions then 0 else vm.fpuExceptions } := by
  unfold riscvUpdateFcsr
  by_cases same : new = vm.csr.fcsr
  · rw [if_pos same, same, if_neg fun refused : Refused _ _ => refused.1 rfl, if_pos rfl, if_neg (not_losesHost rfl)]
  rw [if_neg same]
  by_cases refused : Refused vm.csr.fcsr new
  · rw [if_pos refused]
    exact if_pos refused
  have known : ¬ (bitExtU32 new 5 3 ≠ bitExtU32 vm.csr.fcsr 5 3 ∧ 4#32 < bitExtU32 new 5 3) := refused
  have rounding : (if bitExtU32 new 5 3 ≠ bitExtU32 vm.csr.fcsr 5 3 then
      { vm with fpuRounding := fpuSetRoundingMode (bitExtU32 new 5 3) } else vm) =
        { vm with fpuRounding :=
          if fcsrFrm new = fcsrFrm vm.csr.fcsr then vm.fpuRounding else fpuSetRoundingMode (fcsrFrm new) } := by
    by_cases kept : bitExtU32 new 5 3 = bitExtU32 vm.csr.fcsr 5 3
    · rw [if_neg (not_not.mpr kept), if_pos (show fcsrFrm new = fcsrFrm vm.csr.fcsr from kept)]
    · rw [if_pos kept, if_neg (show ¬ fcsrFrm new = fcsrFrm vm.csr.fcsr from kept)]
      rfl
  rw [if_neg refused]
  dsimp only
  rw [if_neg known, rounding]
  by_cases loses : LosesHost vm.csr.fcsr new vm.fpuExceptions
  · rw [if_pos loses]
    exact congrArg (fun vm : Hart δ => vm.setCsr { vm.csr with fcsr := new }) (if_pos loses)
  · rw [if_neg loses]
    exact congrArg (fun vm : Hart δ => vm.setCsr { vm.csr with fcsr := new }) (if_neg loses)

theorem bitReplace_flags (fcsr : BitVec 32) (frm : BitVec 64) :
    fcsrFlags ((bitReplace (fcsr.setWidth 64) 5 3 frm).setWidth 32) = fcsrFlags fcsr := by
  refine eq_of_getLsbD_eq fun i below => ?_
  rw [fcsrFlags, fcsrFlags, getLsbD_bitExtU _ (by decide), getLsbD_bitExtU _ (by decide), getLsbD_setWidth,
    getLsbD_bitReplace _ _ _ _ _ (by omega)]
  by_cases inside : i < 5
  · simp [show ¬ 5 ≤ i by omega, inside, below, show i < 64 by omega]
  · simp [inside]

theorem fflags_frm (rv64 : Bool) (fcsr : BitVec 32) (dest : BitVec 64) (op : CsrOp) :
    fcsrFrm ((riscvCsrHelperMasked rv64 (fcsr.setWidth 64) dest csrFflagsMask op).1.setWidth 32) = fcsrFrm fcsr := by
  have kept : (riscvCsrHelperMasked rv64 (fcsr.setWidth 64) dest csrFflagsMask op).1 &&& 0xE0#64 =
      fcsr.setWidth 64 &&& 0xE0#64 := riscvCsrHelperMasked_kept dest op _ _ _ (by decide)
  refine eq_of_getLsbD_eq fun i below => ?_
  rw [fcsrFrm, fcsrFrm, getLsbD_bitExtU _ (by decide), getLsbD_bitExtU _ (by decide), getLsbD_setWidth]
  by_cases inside : i < 3
  · have shield : (0xE0#64).getLsbD (5 + i) = true := by
      revert inside
      revert i
      decide
    have bit := congrArg (·.getLsbD (5 + i)) kept
    simp only [getLsbD_and, shield, Bool.and_true, getLsbD_setWidth] at bit
    rw [bit, decide_eq_true (show 5 + i < 32 by omega), decide_eq_true (show 5 + i < 64 by omega), Bool.true_and,
      Bool.true_and]
  · simp [inside]

section Host
variable {vm : Hart δ} (flags : vm.fpuExceptions < 32)
include flags

theorem fpuExceptions_bit {i : Nat} (above : 5 ≤ i) : vm.fpuExceptions.getLsbD i = false := by
  have small : vm.fpuExceptions.toNat < 2 ^ 5 := flags
  exact Nat.testBit_lt_two_pow (lt_of_lt_of_le small (Nat.pow_le_pow_right (by decide) above))

theorem frm_or (fcsr : BitVec 32) : fcsrFrm (fcsr ||| vm.fpuExceptions) = fcsrFrm fcsr := by
  refine eq_of_getLsbD_eq fun i below => ?_
  rw [fcsrFrm, fcsrFrm, getLsbD_bitExtU _ (by decide), getLsbD_bitExtU _ (by decide), getLsbD_or,
    fpuExceptions_bit flags (by omega), Bool.or_false]

theorem or_fpuExceptions {new : BitVec 32} :
    (new ||| if LosesHost vm.fcsr new vm.fpuExceptions then 0 else vm.fpuExceptions) = new := by
  split
  · exact BitVec.or_zero
  next kept =>
    refine eq_of_getLsbD_eq fun i below => ?_
    rw [getLsbD_or]
    cases raised : vm.fpuExceptions.getLsbD i with
    | false => rw [Bool.or_false]
    | true =>
      have low : i < 5 := by
        by_contra high
        rw [fpuExceptions_bit flags (not_lt.mp high)] at raised
        contradiction
      rw [LosesHost, not_and_or, not_not, not_not] at kept
      have bit : new.getLsbD i = true := by
        rcases kept with none | none
        all_goals
          have here := congrArg (·.getLsbD i) none
          simpa only [getLsbD_and, getLsbD_not, getLsbD_or, getLsbD_bitExtU, Hart.fcsr, raised, low, below,
            Nat.zero_add, Nat.reduceLeDiff, decide_true, Bool.true_and, Bool.or_true, Bool.and_true,
            BitVec.ofNat_eq_ofNat, BitVec.getLsbD_zero, Bool.not_eq_false_eq_eq_true] using here
      rw [bit, Bool.true_or]

end Host

theorem fpuSetRoundingMode_eq_iff (mode : BitVec 32) : fpuSetRoundingMode mode = mode ↔ mode ≠ 4 := by
  unfold fpuSetRoundingMode
  split
  next four =>
    subst four
    decide
  next other => exact iff_of_true rfl other

theorem flags_or {fcsr fcsr' : BitVec 32} (same : fcsrFlags fcsr = fcsrFlags fcsr') (exceptions : BitVec 32) :
    fcsrFlags (fcsr ||| exceptions) = fcsrFlags (fcsr' ||| exceptions) := by
  unfold fcsrFlags bitExtU32 bitExtU at same ⊢
  rw [BitVec.shiftLeft_or_distrib, BitVec.ushiftRight_or_distrib, same, ← BitVec.ushiftRight_or_distrib,
    ← BitVec.shiftLeft_or_distrib]

theorem riscvCsrFflags_reads {vm : Hart δ} (enabled : riscvFpuIsEnabled vm = true) :
    (riscvCsrFflags vm 0 .setbits).dest = (fcsrFlags vm.fcsr).setWidth 64 := by
  have narrow : (if vm.rv64 then csrFflagsMask else csrFflagsMask &&& 0xFFFFFFFF#64) = csrFflagsMask := by
    cases vm.rv64 <;> rfl
  have field (fcsr : BitVec 32) : fcsr.setWidth 64 &&& csrFflagsMask = (fcsrFlags fcsr).setWidth 64 := by
    refine eq_of_getLsbD_eq fun i below => ?_
    have mask : csrFflagsMask.getLsbD i = decide (i < 5) := by
      revert i
      decide
    rw [getLsbD_and, getLsbD_setWidth, getLsbD_setWidth, mask, fcsrFlags]
    rw [getLsbD_bitExtU _ (by decide)]
    by_cases flag : i < 5 <;> simp [flag, below]
  rw [riscvCsrFflags, if_pos enabled, ← field]
  exact congrArg (_ &&& ·) narrow

section Access
variable {vm : Hart δ} (enabled : riscvFpuIsEnabled vm = true) {dest : BitVec 64} {op : CsrOp} {name : CsrName}
include enabled

/-- The access ends as the update of `fcsr` from `mid`, which differs from the hart before in `fcsr` only. -/
theorem fpAccessed_iff_of {mid : Hart δ} {new : BitVec 32} (status : mid.csr.status = vm.csr.status)
    (rounding : mid.fpuRounding = vm.fpuRounding) (merged : mid.fcsr = vm.fcsr)
    (old : fcsrFrm mid.csr.fcsr = fcsrFrm vm.csr.fcsr) (frm : fcsrFrm new = fcsrFrm (fpOp vm dest op name).1)
    (whole : (new ||| if LosesHost mid.csr.fcsr new mid.fpuExceptions then 0 else mid.fpuExceptions) =
      (fpOp vm dest op name).1)
    (other : name ≠ .fcsr → Refused mid.csr.fcsr new → fcsrFlags (fpOp vm dest op name).1 = fcsrFlags vm.fcsr) :
    FpAccessed vm dest op name ⟨true, (fpOp vm dest op name).2, riscvUpdateFcsr mid mid.csr.fcsr new⟩ ↔
      FpExact vm dest op name := by
  have fs {r : Hart δ} (same : r.csr.status = vm.csr.status) : r.csr.fs = vm.csr.fs := by rw [Csr.fs, Csr.fs, same]
  have reads {r : Hart δ} (same : r.csr.status = vm.csr.status) :
      (riscvCsrFflags r 0 .setbits).dest = (fcsrFlags r.fcsr).setWidth 64 := by
    refine riscvCsrFflags_reads ?_
    rw [riscvFpuIsEnabled, fs same]
    exact enabled
  have mode : Refused mid.csr.fcsr new ↔ fcsrFrm (fpOp vm dest op name).1 ≠ fcsrFrm vm.csr.fcsr ∧
      4 < fcsrFrm (fpOp vm dest op name).1 := by rw [Refused, frm, old]
  rw [riscvUpdateFcsr_eq]
  by_cases refused : Refused mid.csr.fcsr new
  · obtain ⟨changed, above⟩ := mode.mp refused
    have large : ¬ fcsrFrm (fpOp vm dest op name).1 ≤ 4 := BitVec.not_le.mpr above
    rw [if_pos refused]
    constructor
    · intro accessed
      refine ⟨fun writes => (fs status).symm.trans (accessed.dirty writes), fun _ _ _ => ?_,
        fun _ _ small => absurd small large⟩
      have same := accessed.flags.symm.trans ((reads status).trans (by rw [merged]))
      have narrow := congrArg (BitVec.setWidth 32) same
      rwa [BitVec.setWidth_setWidth_of_le _ (by decide), BitVec.setWidth_setWidth_of_le _ (by decide)] at narrow
    · intro exact
      refine ⟨rfl, rfl, (reads status).trans ?_, fun small => absurd small large, fun _ _ small => absurd small large,
        fun writes => (fs status).trans (exact.dirty writes)⟩
      have unchanged : fcsrFlags (fpOp vm dest op name).1 = fcsrFlags vm.fcsr := by
        by_cases whole : name = .fcsr
        · exact exact.flags whole above changed
        · exact other whole refused
      rw [merged, unchanged]
  · rw [if_neg refused]
    have host : (if fcsrFrm new = fcsrFrm mid.csr.fcsr then mid.fpuRounding else fpuSetRoundingMode (fcsrFrm new)) =
        fcsrFrm (fpOp vm dest op name).1 ↔
          if fcsrFrm (fpOp vm dest op name).1 = fcsrFrm vm.csr.fcsr then
            vm.fpuRounding = fcsrFrm (fpOp vm dest op name).1
          else fcsrFrm (fpOp vm dest op name).1 ≠ 4 := by
      rw [frm, old, rounding]
      split
      · rfl
      · exact fpuSetRoundingMode_eq_iff _
    constructor
    · intro accessed
      refine ⟨fun writes => ?_, fun _ large changed => ?_,
        fun own writes small => host.mp (accessed.host own writes small)⟩
      · exact (fs status).symm.trans (accessed.dirty writes)
      · exact absurd (mode.mpr ⟨changed, large⟩) refused
    · intro exact
      refine ⟨rfl, rfl, ?_, fun _ => frm, fun own writes small => host.mpr (exact.host own writes small), ?_⟩
      · refine Eq.trans (reads ?_) (congrArg (fun fcsr => (fcsrFlags fcsr).setWidth 64) whole)
        exact status
      · exact fun writes => (fs status).trans (exact.dirty writes)

variable (flags : vm.fpuExceptions < 32)
include flags

theorem fpAccessed_iff_merged {result : BitVec 64 × BitVec 64}
    (own : fpOp vm dest op name = (result.1.setWidth 32, result.2))
    (other : name ≠ .fcsr → fcsrFrm (result.1.setWidth 32) = fcsrFrm vm.fcsr) :
    FpAccessed vm dest op name ⟨true, result.2, riscvSetFcsr (riscvUpdateFflags vm) result.1⟩ ↔
      FpExact vm dest op name := by
  have next : (fpOp vm dest op name).1 = result.1.setWidth 32 := by rw [own]
  have old : result.2 = (fpOp vm dest op name).2 := by rw [own]
  rw [riscvSetFcsr, old]
  refine fpAccessed_iff_of enabled rfl rfl ?_ (frm_or flags _) (by rw [next]) ?_ ?_
  · exact (BitVec.or_assoc ..).trans (congrArg _ (BitVec.or_self ..))
  · rw [next]
    exact or_fpuExceptions flags
  · intro part refused
    exact absurd (other part) refused.1

/-- An access to one of the registers is exact if and only if it finds what `FpExact` says. -/
theorem fp_access_exact_iff (named : name = .fflags ∨ name = .frm ∨ name = .fcsr) :
    FpAccessed vm dest op name (riscvCsrAccess vm dest op name) ↔ FpExact vm dest op name := by
  rcases named with rfl | rfl | rfl
  · simp only [riscvCsrAccess, riscvCsrFflags, if_pos enabled]
    exact fpAccessed_iff_merged enabled flags rfl fun _ => fflags_frm _ _ _ _
  · simp only [riscvCsrAccess, riscvCsrFrm, if_pos enabled]
    have own : (fpOp vm dest op .frm).1 = (bitReplace (vm.csr.fcsr.setWidth 64) 5 3 (riscvCsrHelperMasked vm.rv64
        (vm.csr.fcsr.setWidth 64 >>> 5) dest csrFrmMask op).1).setWidth 32 ||| vm.fpuExceptions := rfl
    refine fpAccessed_iff_of enabled rfl rfl rfl rfl ?_ ?_ fun _ _ => ?_
    · rw [own, frm_or flags]
    · rw [own, if_neg (not_losesHost (bitReplace_flags _ _))]
    · rw [own]
      exact flags_or (bitReplace_flags _ _) _
  · simp only [riscvCsrAccess, riscvCsrFcsr, if_pos enabled]
    exact fpAccessed_iff_merged enabled flags rfl fun part => absurd rfl part

end Access

/-- The host has raised the flag NX. -/
def inexactHart : Hart Unit :=
  { (riscvHartInit .empty (fun _ => 0) [] () true false).setStatus 0x6000 with fpuExceptions := 1 }

theorem fp_access_exact_iff_inexactHart :
    (riscvFpuIsEnabled inexactHart = true ∧ inexactHart.fpuExceptions < 32) ∧
      (riscvCsrAccess inexactHart 0x22 .swap .fcsr).vm.fpuExceptions = 0 ∧
        FpAccessed inexactHart 0x22 .swap .fcsr (riscvCsrAccess inexactHart 0x22 .swap .fcsr) :=
  ⟨by decide, by decide, (fp_access_exact_iff (by decide) (by decide) (.inr (.inr rfl))).mpr
    ⟨fun _ => by decide, fun _ large => absurd large (by decide), fun _ _ _ => by decide⟩⟩

/-- A write of `fcsr` with mode 5 drops its flags, a write of `fflags` does not make the state dirty, and mode 4
leaves the host at rounding to even. -/
theorem fcsr_write_lost :
    let dropped := riscvCsrAccess inexactHart 0xA2 .swap .fcsr
    let clean := inexactHart.setStatus 0x2000
    let away := riscvCsrAccess inexactHart 4 .swap .frm
    ((riscvCsrFflags dropped.vm 0 .setbits).dest = 1 ∧ ¬ FpAccessed inexactHart 0xA2 .swap .fcsr dropped) ∧
      ((riscvCsrAccess clean 2 .swap .fflags).vm.csr.fs = 1 ∧
        ¬ FpAccessed clean 2 .swap .fflags (riscvCsrAccess clean 2 .swap .fflags)) ∧
        away.vm.fpuRounding = 0 ∧ ¬ FpAccessed inexactHart 4 .swap .frm away := by
  refine ⟨⟨by decide, fun accessed => ?_⟩, ⟨by decide, fun accessed => ?_⟩, by decide, fun accessed => ?_⟩
  · exact absurd accessed.flags (by decide)
  · exact absurd (accessed.dirty (.inl rfl)) (by decide)
  · exact absurd (accessed.host nofun (.inl rfl) (by decide)) (by decide)

end Rvvm
