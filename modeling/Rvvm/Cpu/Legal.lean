import Rvvm.Cpu.Csr

/-! Fields of the control registers that take only some values, and what keeps them legal. -/
namespace Rvvm
open BitVec
open Function (update update_self)

/-! Two-bit fields. -/

variable {pos : Nat}

theorem getLsbD_bitExtU {w : Nat} (x : BitVec w) {bits : Nat} (fits : pos + bits ≤ w) (i : Nat) :
    (bitExtU x pos bits).getLsbD i = (decide (i < bits) && x.getLsbD (pos + i)) := by
  rw [bitExtU_eq x fits, getLsbD_setWidth, getLsbD_extractLsb']
  by_cases inside : i < bits
  · rw [decide_eq_true (by omega : i < w), Bool.true_and]
  · rw [decide_eq_false inside, Bool.false_and, Bool.and_false]

theorem bitCut_congr {x y : BitVec 64} (fits : pos + 2 ≤ 64)
    (first : x.getLsbD pos = y.getLsbD pos) (second : x.getLsbD (pos + 1) = y.getLsbD (pos + 1)) :
    bitCut x pos 2 = bitCut y pos 2 := by
  apply eq_of_getLsbD_eq
  intro i below
  rw [getLsbD_bitExtU x fits, getLsbD_bitExtU y fits]
  match i with
  | 0 => rw [Nat.add_zero, first]
  | 1 => rw [second]
  | n + 2 => rw [decide_eq_false (by omega), Bool.false_and, Bool.false_and]

theorem bitCut_bitReplace_apart (x field : BitVec 64) {pos there bits : Nat} (fits : pos + 2 ≤ 64)
    (apart : there + bits ≤ pos ∨ pos + 2 ≤ there) :
    bitCut (bitReplace x there bits field) pos 2 = bitCut x pos 2 := by
  refine bitCut_congr fits ?_ ?_
  all_goals rw [getLsbD_bitReplace _ _ _ _ _ (by omega), if_neg (by omega)]

theorem bitCut_bitReplace_self (x field : BitVec 64) (fits : pos + 2 ≤ 64) :
    bitCut (bitReplace x pos 2 field) pos 2 = bitCut field 0 2 := by
  apply eq_of_getLsbD_eq
  intro i below
  rw [getLsbD_bitExtU _ fits, getLsbD_bitExtU field (by decide), Nat.zero_add]
  by_cases inside : i < 2
  · rw [getLsbD_bitReplace _ _ _ _ _ (by omega), if_pos (by omega), Nat.add_sub_cancel_left]
  · rw [decide_eq_false inside, Bool.false_and, Bool.false_and]

/-- `MPP` names a privilege that exists and, on a 64-bit machine, `UXL` and `SXL` name a width. -/
structure StatusLegal (machineRv64 : Bool) (status : BitVec 64) : Prop where
  mpp : bitCut status 11 2 ≠ Priv.hypervisor.bits
  uxl : machineRv64 = true → bitCut status 32 2 = 1 ∨ bitCut status 32 2 = 2
  sxl : machineRv64 = true → bitCut status 34 2 = 1 ∨ bitCut status 34 2 = 2

section Status
variable {machineRv64 : Bool} {status : BitVec 64}

section
variable (legal : StatusLegal machineRv64 status)
include legal

theorem StatusLegal.of_same {status' : BitVec 64}
    (mpp : bitCut status' 11 2 = bitCut status 11 2) (uxl : bitCut status' 32 2 = bitCut status 32 2)
    (sxl : bitCut status' 34 2 = bitCut status 34 2) : StatusLegal machineRv64 status' := by
  refine ⟨?_, ?_, ?_⟩
  · rw [mpp]
    exact legal.mpp
  · rw [uxl]
    exact legal.uxl
  · rw [sxl]
    exact legal.sxl

theorem StatusLegal.bitReplace (field : BitVec 64) {pos bits : Nat}
    (apart : pos + bits ≤ 11 ∨ (13 ≤ pos ∧ pos + bits ≤ 32)) :
    StatusLegal machineRv64 (bitReplace status pos bits field) := by
  refine legal.of_same ?_ ?_ ?_
  all_goals exact bitCut_bitReplace_apart _ _ (by decide) (by omega)

theorem StatusLegal.setMpp {priv : Priv} (named : priv ≠ .hypervisor) :
    StatusLegal machineRv64 (Rvvm.bitReplace status 11 2 priv.bits) := by
  refine ⟨?_, ?_, ?_⟩
  · rw [bitCut_bitReplace_self _ _ (by decide)]
    revert named
    cases priv <;> decide
  · rw [bitCut_bitReplace_apart _ _ (by decide) (by decide)]
    exact legal.uxl
  · rw [bitCut_bitReplace_apart _ _ (by decide) (by decide)]
    exact legal.sxl
end

theorem riscvCsrStatusXlValid_iff (xl : BitVec 64) : riscvCsrStatusXlValid xl = true ↔ xl = 1 ∨ xl = 2 := by
  unfold riscvCsrStatusXlValid
  rw [Bool.or_eq_true, beq_iff_eq, beq_iff_eq]

theorem bitCut_ite_apart {p : Prop} [Decidable p] (status field : BitVec 64) {pos there : Nat}
    (fits : pos + 2 ≤ 64) (apart : there + 2 ≤ pos ∨ pos + 2 ≤ there) :
    bitCut (if p then bitReplace status there 2 field else status) pos 2 = bitCut status pos 2 := by
  split
  · exact bitCut_bitReplace_apart _ _ fits apart
  · rfl

theorem statusWarl_legal (machineRv64 : Bool) (status : BitVec 64) :
    StatusLegal machineRv64 (statusWarl machineRv64 status) := by
  -- one of the two width fields, after its own legalisation
  have fixed (status : BitVec 64) {pos : Nat} (fits : pos + 2 ≤ 64) (wide : machineRv64 = true) :
      let next := if machineRv64 && !riscvCsrStatusXlValid (bitCut status pos 2) then
        bitReplace status pos 2 2 else status
      bitCut next pos 2 = 1 ∨ bitCut next pos 2 = 2 := by
    dsimp only
    rw [wide, Bool.true_and]
    cases valid : riscvCsrStatusXlValid (bitCut status pos 2) with
    | false =>
      rw [Bool.not_false, if_pos rfl, bitCut_bitReplace_self _ _ fits]
      exact .inr (by decide)
    | true =>
      exact (riscvCsrStatusXlValid_iff _).mp valid
  have named (status : BitVec 64) :
      bitCut (if bitCut status 11 2 = Priv.hypervisor.bits then bitReplace status 11 2 Priv.user.bits else status)
        11 2 ≠ Priv.hypervisor.bits := by
    split
    next reserved =>
      rw [bitCut_bitReplace_self _ _ (by decide)]
      decide
    next legal => exact legal
  unfold statusWarl
  refine ⟨?_, fun wide => ?_, fun wide => ?_⟩
  · rw [bitCut_bitReplace_apart _ _ (by decide) (by decide)]
    exact named _
  · rw [bitCut_bitReplace_apart _ _ (by decide) (by decide), bitCut_ite_apart _ _ (by decide) (by decide),
      bitCut_ite_apart _ _ (by decide) (by decide)]
    exact fixed status (by decide) wide
  · rw [bitCut_bitReplace_apart _ _ (by decide) (by decide), bitCut_ite_apart _ _ (by decide) (by decide)]
    exact fixed _ (by decide) wide

theorem StatusLegal.setDirty (legal : StatusLegal machineRv64 status) :
    StatusLegal machineRv64 (status ||| (3#64 <<< 13)) := by
  refine legal.of_same ?_ ?_ ?_
  all_goals exact bitCut_congr (by decide) (by simp) (by simp)

end Status

def TvecLegal (tvec : BitVec 64) : Prop := bitCut tvec 0 2 = 0 ∨ bitCut tvec 0 2 = 1

theorem riscvCsrTvec_legal (rv64 : Bool) (csr dest : BitVec 64) (op : CsrOp) :
    TvecLegal (riscvCsrTvec rv64 csr dest op).1 := by
  unfold riscvCsrTvec TvecLegal
  rw [bitCut_bitReplace_self _ _ (by decide)]
  generalize bitCut (riscvCsrHelper rv64 csr dest op).1 0 2 = mode
  have bit : mode &&& 0x1#64 = 0 ∨ mode &&& 0x1#64 = 1 := by
    rw [and_one_eq_setWidth_ofBool_getLsbD]
    cases mode.getLsbD 0 with
    | false => exact .inl (by decide)
    | true => exact .inr (by decide)
  rcases bit with zero | one
  · rw [zero]
    exact .inl (by decide)
  · rw [one]
    exact .inr (by decide)

structure Csr.Legal (machineRv64 : Bool) (csr : Csr) : Prop where
  status : StatusLegal machineRv64 csr.status
  tvec : ∀ priv, TvecLegal (csr.tvec priv)
  medeleg : csr.edeleg .machine &&& ~~~ csrMedelegMask = 0
  mideleg : csr.ideleg .machine &&& ~~~ csrMidelegMask = 0

/-- Delegation skips the privilege that does not exist. -/
structure Csr.SkipsHypervisor (csr : Csr) : Prop where
  edeleg : csr.edeleg .hypervisor = 0xFFFFFFFF#64
  ideleg : csr.ideleg .hypervisor = 0xFFFFFFFF#64

/-- A change of the control registers that keeps both. -/
structure WarlKept (machineRv64 : Bool) (csr csr' : Csr) : Prop where
  legal : csr.Legal machineRv64 → csr'.Legal machineRv64
  skips : csr.SkipsHypervisor → csr'.SkipsHypervisor

namespace WarlKept
variable {machineRv64 : Bool}

theorem refl (csr : Csr) : WarlKept machineRv64 csr csr := ⟨id, id⟩

theorem trans {a b c : Csr} (first : WarlKept machineRv64 a b) (second : WarlKept machineRv64 b c) :
    WarlKept machineRv64 a c := ⟨second.legal ∘ first.legal, second.skips ∘ first.skips⟩

theorem of_same {csr csr' : Csr} (status : csr'.status = csr.status) (tvec : csr'.tvec = csr.tvec)
    (edeleg : csr'.edeleg = csr.edeleg) (ideleg : csr'.ideleg = csr.ideleg) : WarlKept machineRv64 csr csr' := by
  refine ⟨fun legal => ⟨?_, ?_, ?_, ?_⟩, fun skips => ⟨?_, ?_⟩⟩
  · rw [status]
    exact legal.status
  · rw [tvec]
    exact legal.tvec
  · rw [edeleg]
    exact legal.medeleg
  · rw [ideleg]
    exact legal.mideleg
  · rw [edeleg]
    exact skips.edeleg
  · rw [ideleg]
    exact skips.ideleg

theorem setStatus (csr : Csr) {status : BitVec 64}
    (kept : StatusLegal machineRv64 csr.status → StatusLegal machineRv64 status) :
    WarlKept machineRv64 csr { csr with status := status } :=
  ⟨fun legal => ⟨kept legal.status, legal.tvec, legal.medeleg, legal.mideleg⟩,
    fun skips => ⟨skips.edeleg, skips.ideleg⟩⟩

theorem setTvec (csr : Csr) (priv : Priv) {tvec : BitVec 64} (own : TvecLegal tvec) :
    WarlKept machineRv64 csr { csr with tvec := update csr.tvec priv tvec } := by
  refine ⟨fun legal => ⟨legal.status, fun p => ?_, legal.medeleg, legal.mideleg⟩,
    fun skips => ⟨skips.edeleg, skips.ideleg⟩⟩
  dsimp only
  rw [Function.update_apply]
  split
  · exact own
  · exact legal.tvec p

theorem setMedeleg (csr : Csr) {edeleg : BitVec 64}
    (own : edeleg &&& ~~~ csrMedelegMask = csr.edeleg .machine &&& ~~~ csrMedelegMask) :
    WarlKept machineRv64 csr { csr with edeleg := update csr.edeleg .machine edeleg } := by
  refine ⟨fun legal => ⟨legal.status, legal.tvec, ?_, legal.mideleg⟩,
    fun skips => ⟨skips.edeleg, skips.ideleg⟩⟩
  show update csr.edeleg .machine edeleg .machine &&& _ = 0
  rw [update_self, own]
  exact legal.medeleg

theorem setMideleg (csr : Csr) {ideleg : BitVec 64}
    (own : ideleg &&& ~~~ csrMidelegMask = csr.ideleg .machine &&& ~~~ csrMidelegMask) :
    WarlKept machineRv64 csr { csr with ideleg := update csr.ideleg .machine ideleg } := by
  refine ⟨fun legal => ⟨legal.status, legal.tvec, legal.medeleg, ?_⟩,
    fun skips => ⟨skips.edeleg, skips.ideleg⟩⟩
  show update csr.ideleg .machine ideleg .machine &&& _ = 0
  rw [update_self, own]
  exact legal.mideleg

end WarlKept

end Rvvm
