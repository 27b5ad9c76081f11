import Rvvm.Cpu.Legal
import Rvvm.Cpu.Translation

/-! What a write to `satp` selects: the value read back, and the walk of every later translation. -/
namespace Rvvm
open BitVec

variable {δ : Type}

/-- The value an operation on `satp` results in. -/
def Hart.satpWritten (vm : Hart δ) (dest : BitVec 64) (op : CsrOp) : BitVec 64 :=
  (riscvCsrHelper vm.rv64 vm.satp dest op).1

/-- `MODE` and `PPN`; the address space identifier is always zero. -/
def satpFields (rv64 : Bool) : BitVec 64 := if rv64 then 0xF0000FFFFFFFFFFF else 0x803FFFFF

/-- Translation through `levels` levels of tables from the page at `root`. -/
def walkFrom (vm : Hart δ) (levels : Nat) (root vaddr : Addr) (priv : Priv) (access : BitVec 64) : Option Addr :=
  match levels with
  | 0 => some vaddr
  | 2 => (sv32Format.walk vm.mem vm.csr priv access vaddr 2 ⟨root, 22⟩ vm.host).1
  | _ =>
    if vaddr ≠ signExtend64 vaddr (12 + 9 * levels) then none
    else (sv64Format.walk vm.mem vm.csr priv access vaddr levels ⟨root, 3 + 9 * levels⟩ vm.host).1

/-- A written value is in effect: it is read back, walks follow its mode from its root until `satp` is written
again, and neither the TLB nor the JTLB serves an address from another mode. -/
structure SatpTaken (before vm : Hart δ) (written : BitVec 64) (mode : SatpMode) (root : Addr) : Prop where
  read : (riscvCsrSatp vm 0 .setbits).dest = written &&& satpFields vm.rv64
  levels : vm.mmuMode.levels = mode.levels
  table : vm.rootPageTable = root
  cached : ∀ vaddr access, vm.tlbHit vaddr access = true → before.mmuMode = mode
  blocks : ∀ pc, jtlbHit vm pc = true → before.mmuMode = mode
  walks : ∀ later : Hart δ, later.mmuMode = vm.mmuMode → later.rootPageTable = vm.rootPageTable →
    ∀ vaddr access, (riscvMmuTranslate later vaddr access).1 =
      if (later.effectivePriv access).code < Priv.machine.code then
        walkFrom later mode.levels root vaddr (later.effectivePriv access) (later.effectiveAccess access)
      else some vaddr

theorem riscvMmuTranslate_walkFrom (vm : Hart δ) (vaddr : Addr) (access : BitVec 64) :
    (riscvMmuTranslate vm vaddr access).1 =
      if (vm.effectivePriv access).code < Priv.machine.code then
        walkFrom vm vm.mmuMode.levels vm.rootPageTable vaddr (vm.effectivePriv access) (vm.effectiveAccess access)
      else some vaddr := by
  unfold riscvMmuTranslate
  dsimp only
  split
  · cases vm.mmuMode with
    | bare | sv32 => rfl
    | sv39 | sv48 | sv57 =>
      unfold riscvMmuTranslateRv64 walkFrom SatpMode.levels
      dsimp only
      split <;> rfl
  · rfl

theorem SatpMode.levels_inj {mode mode' : SatpMode} (same : mode.levels = mode'.levels) : mode = mode' := by
  revert same
  cases mode <;> cases mode' <;> decide

theorem SatpMode.code_ofCode {code : Nat} {mode : SatpMode} (named : ofCode code = some mode) :
    mode.code = code := by
  unfold ofCode at named
  split at named <;> cases named <;> rfl

theorem satp_split (satp : BitVec 64) {pos bits ppn : Nat} (fits : pos + bits ≤ 64) (low : ppn ≤ pos)
    (room : ppn ≤ 52) :
    (bitCut satp pos bits <<< pos) ||| (((satp &&& bitMask ppn) <<< 12) >>> 12) =
      satp &&& ((bitMask bits <<< pos) ||| bitMask ppn) := by
  apply eq_of_getLsbD_eq
  intro i below
  simp only [getLsbD_or, getLsbD_and, getLsbD_shiftLeft, getLsbD_ushiftRight,
    getLsbD_bitExtU _ fits, below, decide_true, Bool.true_and, getLsbD_bitMask ppn i below, Nat.add_sub_cancel_left]
  by_cases high : i < pos
  · have inside : i < ppn → 12 + i < 64 := by omega
    by_cases root : i < ppn <;> simp [root, high, inside]
  · rw [getLsbD_bitMask bits (i - pos) (by omega), Nat.add_sub_cancel' (not_lt.mp high)]
    have outside : ¬ i < ppn := by omega
    simp [outside, high, Bool.and_comm]

theorem satp_decoded {rv64 sv57Allowed : Bool} {satp root : BitVec 64} {mode : SatpMode}
    (decoded : satpDecode rv64 sv57Allowed satp = some (mode, root)) :
    (BitVec.ofNat 64 mode.code <<< if rv64 then 60 else 31) ||| (root >>> 12) = satp &&& satpFields rv64 := by
  unfold satpDecode at decoded
  cases rv64 with
  | true =>
    simp only [if_true] at decoded
    split at decoded
    · cases decoded
    · cases decoded
    next named =>
      split at decoded
      · cases decoded
      · cases decoded
        rw [SatpMode.code_ofCode named, BitVec.ofNat_toNat]
        exact satp_split satp (by decide) (by decide) (by decide)
  | false =>
    cases decoded
    have mode : BitVec.ofNat 64 (if satp.getLsbD 31 then SatpMode.sv32 else .bare).code = bitCut satp 31 1 := by
      apply BitVec.eq_of_getLsbD_eq
      intro i below
      rw [getLsbD_bitExtU _ (by decide)]
      cases i with
      | zero => cases satp.getLsbD 31 <;> rfl
      | succ i => cases satp.getLsbD 31 <;> simp [SatpMode.code]
    rw [mode]
    exact satp_split satp (by decide) (by decide) (by decide)

section Write
variable {vm : Hart δ} {dest : BitVec 64} {op : CsrOp}
  (allowed : ¬ (vm.csr.status.getLsbD 20 ∧ vm.privMode.code < Priv.machine.code))
include allowed

theorem riscvCsrSatp_dest : (riscvCsrSatp vm dest op).dest = (riscvCsrHelper vm.rv64 vm.satp dest op).2 := by
  unfold riscvCsrSatp
  rw [if_neg allowed]
  dsimp only
  split
  · rfl
  · split <;> rfl

theorem riscvCsrSatp_unsupported (refused : satpDecode vm.rv64 vm.sv57Allowed (vm.satpWritten dest op) = none) :
    (riscvCsrSatp vm dest op).vm = vm := by
  unfold Hart.satpWritten at refused
  unfold riscvCsrSatp
  rw [if_neg allowed]
  dsimp only
  rw [refused]

theorem riscvCsrSatp_supported {mode : SatpMode} {root : Addr}
    (decoded : satpDecode vm.rv64 vm.sv57Allowed (vm.satpWritten dest op) = some (mode, root)) :
    (riscvCsrSatp vm dest op).vm =
      if vm.mmuMode = .bare ↔ mode = .bare then { vm with rootPageTable := root }
      else { riscvTlbFlush { vm with rootPageTable := root } with mmuMode := mode } := by
  unfold Hart.satpWritten at decoded
  unfold riscvCsrSatp
  rw [if_neg allowed]
  dsimp only
  rw [decoded]
  dsimp only
  by_cases same : vm.mmuMode = .bare ↔ mode = .bare
  · rw [if_pos same, if_neg (not_not.mpr (decide_eq_decide.mpr same))]
  · rw [if_neg same, if_pos (mt decide_eq_decide.mp same)]

end Write

theorem SatpTaken.of_state {before vm : Hart δ} {written root : BitVec 64} {mode : SatpMode} {sv57Allowed : Bool}
    (decoded : satpDecode vm.rv64 sv57Allowed written = some (mode, root))
    (allowed : ¬ (vm.csr.status.getLsbD 20 ∧ vm.privMode.code < Priv.machine.code)) (here : vm.mmuMode = mode)
    (table : vm.rootPageTable = root) (cached : ∀ vaddr access, vm.tlbHit vaddr access = true → before.mmuMode = mode)
    (blocks : ∀ pc, jtlbHit vm pc = true → before.mmuMode = mode) : SatpTaken before vm written mode root where
  read := by
    have kept : vm.satp = written &&& satpFields vm.rv64 := by
      rw [← satp_decoded decoded, Hart.satp, here, table]
      split <;> rfl
    rw [riscvCsrSatp_dest allowed, kept]
    cases vm.rv64 with
    | true => rfl
    | false => exact (BitVec.and_assoc _ _ _).trans (congrArg _ (by decide))
  levels := congrArg SatpMode.levels here
  table := table
  cached := cached
  blocks := blocks
  walks := by
    intro later mode' root' vaddr access
    rw [riscvMmuTranslate_walkFrom, mode', root', here, table]

/-- A refused mode changes nothing; a supported one is in effect exactly if it is the mode before the write, or
one of the two is `bare`. -/
theorem satp_write_taken_iff (vm : Hart δ) (dest : BitVec 64) (op : CsrOp)
    (granted : (riscvCsrSatp vm dest op).ret = true) :
    match satpDecode vm.rv64 vm.sv57Allowed (vm.satpWritten dest op) with
    | none => (riscvCsrSatp vm dest op).vm = vm
    | some (mode, root) => SatpTaken vm (riscvCsrSatp vm dest op).vm (vm.satpWritten dest op) mode root ↔
        mode = vm.mmuMode ∨ mode = .bare ∨ vm.mmuMode = .bare := by
  have allowed : ¬ (vm.csr.status.getLsbD 20 ∧ vm.privMode.code < Priv.machine.code) := by
    intro trapped
    rw [riscvCsrSatp, if_pos trapped] at granted
    cases granted
  cases decoded : satpDecode vm.rv64 vm.sv57Allowed (vm.satpWritten dest op) with
  | none => exact riscvCsrSatp_unsupported allowed decoded
  | some found =>
    obtain ⟨mode, root⟩ := found
    dsimp only
    rw [riscvCsrSatp_supported allowed decoded]
    by_cases same : vm.mmuMode = .bare ↔ mode = .bare
    · rw [if_pos same]
      constructor
      · exact fun taken => .inl (SatpMode.levels_inj taken.levels).symm
      · intro either
        have kept : vm.mmuMode = mode := by
          rcases either with kept | bare | bare
          · exact kept.symm
          · rw [same.mpr bare, bare]
          · rw [same.mp bare, bare]
        exact .of_state decoded allowed kept rfl (fun _ _ _ => kept) fun _ _ => kept
    · rw [if_neg same]
      have either : mode = .bare ∨ vm.mmuMode = .bare := by
        by_contra neither
        exact same (iff_of_false (fun bare => neither (.inr bare)) fun bare => neither (.inl bare))
      refine iff_of_true ?_ (.inr either)
      -- the switch empties the TLB and the JTLB
      refine .of_state decoded allowed rfl rfl (fun vaddr access hit => ?_) fun pc hit => ?_
      · exact absurd (hit.symm.trans (emptyTlb_misses vm vaddr access)) Bool.noConfusion
      · exact absurd (hit.symm.trans (jitTlbFlush_misses vm pc)) Bool.noConfusion

/-- A hart in S-mode whose `satp` holds `sv39` and the page 0x80000. -/
def sv39Hart : Hart Unit :=
  { riscvHartInit .empty (fun _ => 0) [] () true false with
    privMode := .supervisor
    mmuMode := .sv39
    rootPageTable := 0x80000000 }

theorem satp_write_taken_iff_bare :
    (riscvCsrSatp sv39Hart 0x12345 .swap).ret = true ∧
      SatpTaken sv39Hart (riscvCsrSatp sv39Hart 0x12345 .swap).vm 0x12345 .bare 0x12345000 :=
  ⟨by decide +kernel, (satp_write_taken_iff sv39Hart 0x12345 .swap (by decide +kernel)).mpr (.inr (.inl rfl))⟩

/-- A direct switch to `sv48` is read back as `sv39`. -/
theorem satp_switch_lost :
    let next := (riscvCsrSatp sv39Hart 0x9000000000080000 .swap).vm
    satpDecode true false 0x9000000000080000 = some (.sv48, 0x80000000) ∧ next.mmuMode = .sv39 ∧
      (riscvCsrSatp next 0 .setbits).dest = 0x8000000000080000 ∧
        ¬ SatpTaken sv39Hart next 0x9000000000080000 .sv48 0x80000000 := by
  intro next
  refine ⟨by decide +kernel, by decide +kernel, by decide +kernel, fun taken => ?_⟩
  exact absurd taken.read (by decide +kernel)

end Rvvm
