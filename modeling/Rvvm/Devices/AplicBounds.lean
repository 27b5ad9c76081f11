import Rvvm.Devices.Aplic

/-! Which words of the controller a register access touches. -/
namespace Rvvm.Aplic
open BitWords Emitting List

def AplicEvent.InBounds : AplicEvent → Prop
  | .access a i => a.InBounds i
  | .msi _ _ _ _ => True

def Bounded {α : Type} (p : AplicM α) : Prop := Always AplicEvent.InBounds p

section Accesses

variable {α : Type} (a : AplicArray) (i : Nat)

theorem load_bounded (inside : a.InBounds i) : Bounded (load a i) :=
  .bind (.emit inside) fun _ => .read _

theorem store_bounded (inside : a.InBounds i) (val : BitVec 32) : Bounded (store a i val) :=
  .bind (.emit inside) fun _ => .modify _

theorem rmw_bounded (inside : a.InBounds i) (f : BitVec 32 → BitVec 32) : Bounded (rmw a i f) :=
  .bind (.emit inside) fun _ => .bind (.read _) fun _ => .bind (.modify _) fun _ => .pure _

theorem discard_bounded {p : AplicM α} (bounded : Bounded p) : Bounded (discard p) := by
  intro aplic event member
  have same : (Functor.discard p).events aplic = p.events aplic := append_nil _
  rw [same] at member
  exact bounded aplic event member

theorem change_bounded (inside : a.InBounds i) (f : BitVec 32 → BitVec 32) : Bounded (discard (rmw a i f)) :=
  discard_bounded (rmw_bounded a i inside f)

end Accesses

theorem isSource_range {irq : Nat} (source : isSource irq = true) : 1 ≤ irq ∧ irq ≤ aplicSrcCount :=
  of_decide_eq_true source

section Helpers

variable {irq reg : Nat} {smode : Bool}

theorem aplicRectifiedBits_bounded (inside : reg < aplicSrcRegs) : Bounded (aplicRectifiedBits reg) :=
  .bind (load_bounded .raised reg inside) fun _ => .bind (load_bounded .invert reg inside) fun _ => .pure _

theorem aplicRectifiedSrc_bounded (source : isSource irq = true) : Bounded (aplicRectifiedSrc irq) :=
  .bind (aplicRectifiedBits_bounded (isSource_word source)) fun _ => .pure _

theorem aplicDetachedSrc_bounded (source : isSource irq = true) : Bounded (aplicDetachedSrc irq) :=
  .bind (load_bounded .source irq (isSource_range source)) fun _ => .pure _

theorem aplicGenMsi_bounded (source : Option Nat) (smode : Bool) (target : BitVec 32) :
    Bounded (aplicGenMsi source smode target) :=
  .bind (.read _) fun _ => .ite (fun _ => .emit trivial) fun _ => .pure _

theorem aplicPendingInterrupt_bounded (irq : Nat) : Bounded (aplicPendingInterrupt irq) := by
  refine .ite (fun source => ?_) fun _ => .pure _
  have word := isSource_word source
  have pend : Bounded (discard (atomicOr .pending (irq / 32) (mask irq))) :=
    change_bounded .pending _ word _
  refine .bind (load_bounded .enabled _ word) fun _ => .ite (fun _ => ?_) fun _ => pend
  refine .bind (load_bounded .deleg _ word) fun _ => .bind (.read _) fun _ => .ite (fun _ => ?_) fun _ => pend
  exact .bind (load_bounded .target irq (isSource_range source)) fun _ => aplicGenMsi_bounded _ _ _

theorem aplicValidBits_bounded (inside : reg < aplicSrcRegs) : Bounded (aplicValidBits smode reg) :=
  .bind (load_bounded .deleg reg inside) fun _ => .pure _

theorem aplicValidSrc_bounded (inside : irq / 32 < aplicSrcRegs) : Bounded (aplicValidSrc smode irq) :=
  .bind (aplicValidBits_bounded inside) fun _ => .pure _

theorem aplicUngatedSrc_bounded (source : isSource irq = true) : Bounded (aplicUngatedSrc smode irq) := by
  refine .bind (aplicValidSrc_bounded (isSource_word source)) fun _ => .ite (fun _ => ?_) fun _ => .pure _
  refine .bind (aplicRectifiedSrc_bounded source) fun _ => .ite (fun _ => .pure _) fun _ => ?_
  exact aplicDetachedSrc_bounded source

end Helpers

section Registers

variable (smode : Bool) (reg irq : Nat) (val : BitVec 32)

theorem aplicReadBits_bounded {a : AplicArray} (bitset : ∀ i, i < aplicSrcRegs → a.InBounds i) :
    Bounded (aplicReadBits smode a reg) := by
  refine .ite (fun inside => ?_) fun _ => .pure _
  exact .bind (load_bounded a reg (bitset reg inside)) fun _ =>
    .bind (aplicValidBits_bounded inside) fun _ => .pure _

theorem aplicReadIn_bounded : Bounded (aplicReadIn smode reg) := by
  refine .ite (fun inside => ?_) fun _ => .pure _
  exact .bind (aplicRectifiedBits_bounded inside) fun _ => .bind (aplicValidBits_bounded inside) fun _ => .pure _

theorem aplicReadSourcecfg_bounded : Bounded (aplicReadSourcecfg smode irq) := by
  refine .ite (fun source => ?_) fun _ => .pure _
  refine .bind (aplicValidSrc_bounded (isSource_word source)) fun _ => .ite (fun _ => ?_) fun _ => ?_
  · exact load_bounded .source irq (isSource_range source)
  · exact .ite (fun _ => .pure _) fun _ => .pure _

theorem aplicReadTargetcfg_bounded : Bounded (aplicReadTargetcfg smode irq) := by
  refine .ite (fun source => ?_) fun _ => .pure _
  refine .bind (aplicValidSrc_bounded (isSource_word source)) fun _ => .ite (fun _ => ?_) fun _ => .pure _
  exact load_bounded .target irq (isSource_range source)

theorem aplicWriteSetipnum_bounded : Bounded (aplicWriteSetipnum smode irq) := by
  refine .ite (fun source => ?_) fun _ => .pure _
  refine .bind (aplicUngatedSrc_bounded source) fun _ => .ite (fun _ => ?_) fun _ => .pure _
  exact aplicPendingInterrupt_bounded irq

theorem aplicWriteSetip_bounded : Bounded (aplicWriteSetip smode reg val) := by
  refine .ite (fun inside => ?_) fun _ => .pure _
  refine .bind (aplicValidBits_bounded inside) fun _ => .forM fun bit _ => ?_
  exact aplicWriteSetipnum_bounded smode _

theorem aplicWriteClear_bounded {a : AplicArray} (bitset : ∀ i, i < aplicSrcRegs → a.InBounds i) :
    Bounded (aplicWriteClear smode a reg val) := by
  refine .ite (fun inside => ?_) fun _ => .pure _
  refine .bind (aplicValidBits_bounded inside) fun _ => .ite (fun _ => ?_) fun _ => .pure _
  exact change_bounded a reg (bitset reg inside) _

theorem aplicWriteSetie_bounded : Bounded (aplicWriteSetie smode reg val) := by
  refine .ite (fun inside => ?_) fun _ => .pure _
  have enables (set : BitVec 32) : Bounded (aplicEnable reg set) :=
    .ite (fun _ => .bind (rmw_bounded .enabled reg inside _) fun _ => .pure _) fun _ => .pure _
  refine .bind (aplicValidBits_bounded inside) fun _ => .bind (enables _) fun _ => ?_
  refine .ite (fun _ => ?_) fun _ => .pure _
  exact .bind (rmw_bounded .pending reg inside _) fun _ => .forM fun bit _ => aplicPendingInterrupt_bounded _

theorem aplicWriteSourcecfg_bounded : Bounded (aplicWriteSourcecfg smode irq val) := by
  refine .ite (fun source => ?_) fun _ => .pure _
  have word := isSource_word source
  have delegates : Bounded (aplicDelegate smode irq val) :=
    .ite (fun _ => .ite (fun _ => change_bounded .deleg _ word _) fun _ => change_bounded .deleg _ word _)
      fun _ => .pure _
  refine .bind delegates fun _ => .bind (aplicValidSrc_bounded word) fun _ => ?_
  refine .ite (fun _ => ?_) fun _ => .pure _
  refine .bind (store_bounded .source irq (isSource_range source) _) fun _ => ?_
  exact .ite (fun _ => change_bounded .invert _ word _) fun _ => change_bounded .invert _ word _

theorem aplicWriteTarget_bounded (source : isSource irq = true) : Bounded (aplicWriteTarget smode irq val) := by
  refine .bind (aplicValidSrc_bounded (isSource_word source)) fun _ => .ite (fun _ => ?_) fun _ => .pure _
  exact store_bounded .target irq (isSource_range source) val

theorem aplicReadReg_bounded (config : BitVec 32) (r : AplicReg) : Bounded (aplicReadReg smode config r) := by
  cases r with
  | setip reg | setie reg => exact aplicReadBits_bounded smode reg fun _ inside => inside
  | inClrip reg => exact aplicReadIn_bounded smode reg
  | sourcecfg irq => exact aplicReadSourcecfg_bounded smode irq
  | target irq => exact aplicReadTargetcfg_bounded smode irq
  | _ => exact .pure _

theorem aplicMmioRead_bounded (off : Nat) : Bounded (aplicMmioRead smode off) :=
  .bind (.read _) fun _ => .bind (aplicReadReg_bounded smode _ _) fun _ => .pure _

theorem aplicWriteReg_bounded (data : BitVec 32) (r : AplicReg)
    (known : ∀ irq, r = .target irq → isSource irq = true) : Bounded (aplicWriteReg smode data val r) := by
  cases r with
  | domaincfg => exact .modify _
  | setipnum | setipnumLe | setipnumBe => exact aplicWriteSetipnum_bounded smode _
  | clripnum | clrienum => exact aplicWriteClear_bounded smode _ _ fun _ inside => inside
  | setienum => exact aplicWriteSetie_bounded smode _ _
  | genmsi => exact aplicGenMsi_bounded none smode val
  | setip reg => exact aplicWriteSetip_bounded smode reg val
  | inClrip reg | clrie reg => exact aplicWriteClear_bounded smode reg val fun _ inside => inside
  | setie reg => exact aplicWriteSetie_bounded smode reg val
  | sourcecfg irq => exact aplicWriteSourcecfg_bounded smode irq val
  | target irq => exact aplicWriteTarget_bounded smode irq val (known irq rfl)
  | msiaddrcfgh | unmapped => exact .pure _

end Registers

theorem of_ite_ne {α : Type} {c : Prop} [Decidable c] {a b x : α} (chosen : (if c then a else b) = x)
    (other : a ≠ x) : b = x := by
  rcases ite_eq_iff.mp chosen with ⟨_, same⟩ | ⟨_, same⟩
  · exact absurd same other
  · exact same

theorem aplicReg_target {off irq : Nat} (decoded : aplicReg off = .target irq) :
    0x3004 ≤ off ∧ off < 0x4000 ∧ irq = (off - 0x3004) / 4 + 1 := by
  iterate 13 replace decoded := of_ite_ne decoded nofun
  rcases ite_eq_iff.mp decoded with ⟨range, same⟩ | ⟨_, rest⟩
  · cases same
    exact ⟨range.1, range.2, rfl⟩
  · cases of_ite_ne rest nofun

theorem aplicReg_of_target {off : Nat} (low : 0x3004 ≤ off) (high : off < 0x4000) :
    aplicReg off = .target ((off - 0x3004) / 4 + 1) := by
  unfold aplicReg
  iterate 13 rw [if_neg (by omega)]
  rw [if_pos ⟨low, high⟩]

/-- A target register past the last source: the delegation bits are looked up out of bounds. -/
theorem aplicWriteTarget_reads_deleg (smode : Bool) (irq : Nat) (val : BitVec 32) (aplic : AplicDev) :
    .access .deleg (irq / 32) ∈ (aplicWriteTarget smode irq val).events aplic :=
  mem_append_left _ mem_cons_self

/-- Reads stay within the arrays, and so do writes except those to the target registers past the last
source, which never do. -/
theorem register_accesses_in_bounds_iff (aplic : AplicDev) (smode : Bool) (off : Nat) (data : BitVec 32)
    (inside : off < 0x4000) :
    (∀ event ∈ (aplicMmioRead smode off).events aplic, event.InBounds) ∧
      ((∀ event ∈ (aplicMmioWrite smode off data).events aplic, event.InBounds) ↔ off < 0x3100) := by
  refine ⟨aplicMmioRead_bounded smode off aplic, ?_, ?_⟩
  · intro bounded
    by_contra beyond
    have target : 0x3004 ≤ off := by omega
    have decoded := aplicReg_of_target target inside
    have looked : .access .deleg (((off - 0x3004) / 4 + 1) / 32) ∈
      (aplicMmioWrite smode off data).events aplic := by
      refine mem_append_right _ ?_
      rw [decoded]
      exact aplicWriteTarget_reads_deleg smode _ _ _
    have within : ((off - 0x3004) / 4 + 1) / 32 < 2 := bounded _ looked
    omega
  · intro known
    have sources (irq : Nat) (decoded : aplicReg off = .target irq) : isSource irq = true := by
      obtain ⟨low, _, rfl⟩ := aplicReg_target decoded
      rw [isSource, decide_eq_true_eq, aplicSrcCount]
      omega
    have writes : Bounded (aplicMmioWrite smode off data) :=
      .bind (.read _) fun _ => aplicWriteReg_bounded smode _ data _ sources
    exact writes aplic

/-- The target register of the last source, in the machine domain. -/
theorem register_accesses_in_bounds_iff_last :
    (∀ event ∈ (aplicMmioRead false 0x30FC).events (aplicInit 1), event.InBounds) ∧
      ((∀ event ∈ (aplicMmioWrite false 0x30FC 1).events (aplicInit 1), event.InBounds) ↔ 0x30FC < 0x3100) :=
  register_accesses_in_bounds_iff (aplicInit 1) false 0x30FC 1 (by decide)

/-- The machine domain's target register of identity 64: the delegation word lies past the array, and
once it reads as zero, so does the store. -/
theorem target_write_out_of_bounds :
    (aplicMmioWrite false 0x3100 1).events (aplicInit 1) = [.access .deleg 2, .access .target 64] ∧
      ¬ AplicArray.deleg.InBounds 2 ∧ ¬ AplicArray.target.InBounds 64 := by
  refine ⟨by decide +kernel, ?_, ?_⟩
  · exact Nat.lt_irrefl 2
  · exact fun range => absurd range.2 (by decide)

end Rvvm.Aplic
