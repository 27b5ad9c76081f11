import Rvvm.Devices.AplicSources

/-! What the handlers do to a source: every register write, and every change of an input line, is a step of
the source. -/
namespace Rvvm.Aplic
open BitWords Emitting
open AplicSource (put)

theorem step_ite (s : AplicSource) (ie : Bool → Bool) (c : Prop) [Decidable c] (input : SourceInput) :
    s.step ie (if c then input else .none) = if c then s.step ie input else (s, false) :=
      apply_ite (s.step ie) c _ _

section Effects

variable (aplic : AplicDev) (i irq : Nat)

theorem put_pending_mask : (aplic.sourceAt i).put i (irq / 32)
    (aplic.words .pending (irq / 32) ||| mask irq) .pending =
    { aplic.sourceAt i with pending := if i = irq then true else (aplic.sourceAt i).pending } := by
  rw [put, AplicDev.sourceAt, put_mask]

theorem aplicGenMsi_does {source : Option Nat} {smode : Bool} {target : BitVec 32}
    (own : source = some i → smode = (aplic.sourceAt i).deleg ∧ target = (aplic.sourceAt i).target) :
    Does (aplicGenMsi source smode target) aplic i (aplic.sourceAt i, decide (source = some i)) := by
  have harts : Silent (read fun aplic => aplic.harts : AplicM Nat) := ⟨fun _ => rfl, fun _ _ => rfl⟩
  refine harts.does (.ite (fun (known : hartid target < aplic.harts) => ⟨rfl, rfl, rfl, ?_⟩)
    fun (missing : ¬ hartid target < aplic.harts) => ⟨rfl, rfl, rfl, ?_⟩)
  all_goals by_cases here : source = some i
  · obtain ⟨rfl, rfl⟩ := own here
    rw [if_pos (decide_eq_true here), AplicSource.messages, if_pos known, here]
    exact List.filter_cons_of_pos (decide_eq_true rfl)
  · rw [if_neg (mt of_decide_eq_true here)]
    refine List.filter_cons_of_neg ?_
    cases source with
    | none => exact Bool.false_ne_true
    | some irq => exact mt (fun same => congrArg some (of_decide_eq_true same)) here
  · obtain ⟨rfl, rfl⟩ := own here
    rw [if_pos (decide_eq_true here), AplicSource.messages, if_neg missing]
    rfl
  · rw [if_neg (mt of_decide_eq_true here)]
    rfl

variable {i} (source : isSource i = true)
include source

theorem aplicPendingInterrupt_does : Does (aplicPendingInterrupt irq) aplic i
    (if i = irq then (aplic.sourceAt i).pend aplic.ie else (aplic.sourceAt i, false)) := by
  have marked (off : (aplic.sourceAt irq).forwards aplic.ie = false) :
      Does (discard (atomicOr .pending (irq / 32) (mask irq))) aplic i
        (if i = irq then (aplic.sourceAt i).pend aplic.ie else (aplic.sourceAt i, false)) := by
    have marks := (rmw_does aplic i .pending (irq / 32) (· ||| mask irq)).discard
    rw [put_pending_mask] at marks
    by_cases here : i = irq
    · subst here
      rw [if_pos rfl] at marks
      rw [if_pos rfl, AplicSource.pend, off]
      exact marks
    · rw [if_neg here] at marks
      rw [if_neg here]
      exact marks
  refine .ite (fun valid => ?_) fun other => .skip (if_neg (by rintro rfl; exact other source))
  refine (load_silent _ _).does (.ite (fun on => ?_) fun disabled => ?_)
  · replace on : (aplic.sourceAt irq).enabled = true := (and_mask_ne_zero _ _).mp on
    refine (load_silent _ _).does ((loadConfig_silent _).does ?_)
    have domain : (value (load .deleg (irq / 32)) aplic &&& mask irq != 0) = (aplic.sourceAt irq).deleg :=
      getLsbD_and_mask _ _
    rw [domain]
    refine .ite (fun ie => (load_silent _ _).does ?_) fun off => ?_
    · replace ie : aplic.ie (aplic.sourceAt irq).deleg = true := bne_iff_ne.mpr ie
      have forwards : (aplic.sourceAt irq).forwards aplic.ie = true := by
        rw [AplicSource.forwards, on, ie, Bool.and_self]
      by_cases here : i = irq
      · subst here
        rw [if_pos rfl, AplicSource.pend, if_pos forwards, ← decide_eq_true (rfl : some i = some i)]
        exact aplicGenMsi_does aplic i fun _ => ⟨rfl, rfl⟩
      · have other : some irq ≠ some i := fun same => here (Option.some.inj same).symm
        rw [if_neg here, ← decide_eq_false other]
        exact aplicGenMsi_does aplic i fun same => absurd same other
    · have ie : aplic.ie (aplic.sourceAt irq).deleg = false := bne_eq_false_iff_eq.mpr (not_not.mp off)
      exact marked (by rw [AplicSource.forwards, ie, Bool.and_false])
  · have off : (aplic.sourceAt irq).enabled = false :=
      Bool.eq_false_iff.mpr (mt (and_mask_ne_zero _ _).mpr disabled)
    exact marked (by rw [AplicSource.forwards, off, Bool.false_and])

theorem aplicUpdateInterrupt_does : Does (aplicUpdateInterrupt irq) aplic i
    (if i = irq ∧ (aplic.sourceAt i).rectified = true ∧ (aplic.sourceAt i).detached = false then
      (aplic.sourceAt i).pend aplic.ie else (aplic.sourceAt i, false)) := by
  have pended := aplicPendingInterrupt_does aplic irq source
  refine (aplicRectifiedSrc_silent _).does ?_
  rw [aplicRectifiedSrc_value]
  refine .ite (fun rectified => (aplicDetachedSrc_silent _).does ?_) fun flat => .skip (if_neg ?_)
  · refine .ite (fun detached => .skip (if_neg ?_)) fun attached => ?_
    · rintro ⟨rfl, -, not⟩
      exact Bool.false_ne_true (not.symm.trans detached)
    · have same : i = irq ∧ (aplic.sourceAt i).rectified = true ∧ (aplic.sourceAt i).detached = false ↔
        i = irq := by
        refine and_iff_left_of_imp ?_
        rintro rfl
        exact ⟨rectified, Bool.eq_false_iff.mpr attached⟩
      simp only [same]
      exact pended
  · rintro ⟨rfl, rectified, -⟩
    exact flat rectified

theorem edge_does {moved : AplicDev} {lvl : Bool} (ie : moved.ie = aplic.ie)
    (line : moved.sourceAt i = { aplic.sourceAt i with raised := if i = irq then lvl
      else (aplic.sourceAt i).raised })
    {edge : Prop} [Decidable edge] (edge_iff : edge ↔ (aplic.sourceAt irq).raised ≠ lvl) :
    Does (if edge then aplicUpdateInterrupt irq else pure ()) moved i
      ((aplic.sourceAt i).step aplic.ie (if i = irq then .line lvl else .none)) := by
  have updated := aplicUpdateInterrupt_does moved irq source
  rw [ie] at updated
  by_cases here : i = irq
  · subst here
    rw [if_pos rfl] at line
    rw [if_pos rfl, AplicSource.step]
    refine .ite (fun changed => ?_) fun same => .skip ?_
    · rw [if_neg (edge_iff.mp changed), ← line]
      simpa using updated
    · have kept := not_not.mp (mt edge_iff.mpr same)
      rw [if_pos kept, line, ← kept]
  · rw [if_neg here] at line
    rw [if_neg fun both => here both.1, line] at updated
    rw [if_neg here]
    exact .ite (fun _ => updated) fun _ => .skip (by rw [line]; rfl)

theorem aplicSetIrq_does (lvl : Bool) : Does (aplicSetIrq irq lvl) aplic i
    ((aplic.sourceAt i).step aplic.ie (if i = irq then .line lvl else .none)) := by
  refine .ite (fun valid => ?_) fun other => .skip (by rw [if_neg (by rintro rfl; exact other source)]; rfl)
  cases lvl with
  | true =>
    refine (rmw_does ..).bind (edge_does aplic irq source ?_ ?_ ?_) (.inl rfl)
    · exact (rmw_does aplic i _ _ _).ie
    · rw [state_rmw, sourceAt_store, put, AplicDev.sourceAt, put_mask]
    · rw [and_mask_ne_zero, BitVec.getLsbD_not, decide_eq_true (Nat.mod_lt irq (by decide)), Bool.true_and,
        Bool.not_eq_true', ← Bool.not_eq_true]
      exact Iff.rfl
  | false =>
    refine (rmw_does ..).bind (edge_does aplic irq source ?_ ?_ ?_) (.inl rfl)
    · exact (rmw_does aplic i _ _ _).ie
    · rw [state_rmw, sourceAt_store, put, AplicDev.sourceAt, put_not_mask]
    · rw [and_mask_ne_zero]
      exact Bool.ne_false_iff.symm

theorem aplicWriteSetipnum_does (smode : Bool) : Does (aplicWriteSetipnum smode irq) aplic i
    ((aplic.sourceAt i).step aplic.ie (if i = irq then .assert smode else .none)) := by
  refine .ite (fun valid => ?_) fun other => .skip (by rw [if_neg (by rintro rfl; exact other source)]; rfl)
  have pended := aplicPendingInterrupt_does aplic irq source
  refine (aplicUngatedSrc_silent _ _).does ?_
  rw [aplicUngatedSrc_value]
  by_cases here : i = irq
  · subst here
    rw [if_pos rfl] at pended
    rw [if_pos rfl, AplicSource.step]
    refine .ite (fun ungated => ?_) fun gated => .skip ?_
    · rw [if_pos (of_decide_eq_true ungated)]
      exact pended
    · rw [if_neg fun ungated => gated (decide_eq_true ungated)]
  · rw [if_neg here] at pended
    rw [if_neg here]
    exact .ite (fun _ => pended) fun _ => .skip rfl

theorem aplicWriteSetip_does (smode : Bool) (reg : Nat) (val : BitVec 32) :
    Does (aplicWriteSetip smode reg val) aplic i ((aplic.sourceAt i).step aplic.ie
      (if i / 32 = reg ∧ val.getLsbD (i % 32) = true then .assert smode else .none)) := by
  rw [step_ite]
  refine .ite (fun inside => (aplicValidBits_silent _ _).does ?_) fun outside => .skip (if_neg ?_)
  · rw [forM_word (aplicWriteSetipnum smode)]
    have once (irq : Nat) (aplic : AplicDev) := aplicWriteSetipnum_does aplic irq source smode
    simp only [step_ite] at once
    have loop := forM_does (fun ie s => s.step ie (.assert smode)) once _
      (word_bits_nodup reg (val &&& (aplicValidBits smode reg).value aplic)) aplic
    simp only [mem_word_bits, and_valid_bit, AplicSource.step] at loop
    simp only [AplicSource.step]
    by_cases own : (aplic.sourceAt i).deleg = smode
    · simpa [own] using loop
    · simpa [own] using loop
  · rintro ⟨rfl, -⟩
    exact outside (isSource_word source)

theorem aplicWriteClear_does {a : AplicArray} (bitset : a = .pending ∨ a = .enabled) (smode : Bool) (reg : Nat)
    (val : BitVec 32) : Does (aplicWriteClear smode a reg val) aplic i
      (if (i / 32 = reg ∧ val.getLsbD (i % 32) = true) ∧ (aplic.sourceAt i).deleg = smode then
        (aplic.sourceAt i).put i (i / 32) 0 a else aplic.sourceAt i, false) := by
  refine .ite (fun inside => (aplicValidBits_silent _ _).does (.ite (fun some => ?_) fun none => .skip ?_))
    fun outside => .skip ?_
  · have cleared := (rmw_does aplic i a reg (· &&& ~~~ (val &&& (aplicValidBits smode reg).value aplic))).discard
    simp only [put_and_not aplic a i reg _ bitset, and_valid_bit] at cleared
    exact cleared
  · rw [if_neg]
    rw [← and_valid_bit, not_not.mp none]
    simp
  · rw [if_neg]
    rintro ⟨⟨rfl, -⟩, -⟩
    exact outside (isSource_word source)

omit source in
theorem aplicEnable_value (reg : Nat) (set : BitVec 32) :
    (aplicEnable reg set).value aplic = set &&& ~~~ aplic.words .enabled reg := by
  rw [aplicEnable]
  by_cases zero : set = 0
  · rw [if_neg (not_not.mpr zero), zero]
    exact BitVec.zero_and.symm
  · rw [if_pos zero]
    rfl

omit source in
theorem aplicEnable_does (reg : Nat) (set : BitVec 32) : Does (aplicEnable reg set) aplic i
    ((aplic.sourceAt i).put i reg (aplic.words .enabled reg ||| set) .enabled, false) := by
  refine .ite (fun _ => (rmw_does ..).bind (.skip (by rw [state_rmw,
    sourceAt_store])) (.inr rfl)) fun zero => .skip ?_
  rw [not_not.mp zero, BitVec.ofNat_eq_ofNat, BitVec.or_zero, put_self]

omit source in
theorem newly_enabled (smode : Bool) (reg : Nat) (val : BitVec 32) :
    (i / 32 = reg ∧ ((val &&& (aplicValidBits smode reg).value aplic) &&&
        ~~~ aplic.words .enabled reg).getLsbD (i % 32) = true) ↔
      (i / 32 = reg ∧ val.getLsbD (i % 32) = true) ∧
        (aplic.sourceAt i).deleg = smode ∧ (aplic.sourceAt i).enabled = false := by
  rw [BitVec.getLsbD_and, Bool.and_eq_true, ← and_assoc, and_valid_bit, and_assoc]
  refine and_congr_right fun both => and_congr_right fun _ => ?_
  rw [BitVec.getLsbD_not, decide_eq_true (Nat.mod_lt i (by decide)), Bool.true_and, Bool.not_eq_true', ← both.1]
  exact Iff.rfl

theorem renotify_does (reg : Nat) (new : BitVec 32) :
    Does (do
        let irqs ← atomicAnd .pending reg (~~~ new)
        (bits irqs).forM fun bit => aplicPendingInterrupt (reg * 32 + bit)) aplic i
      (if i / 32 = reg ∧ (aplic.sourceAt i).pending = true then
        if new.getLsbD (i % 32) then ({ aplic.sourceAt i with pending := false } : AplicSource).pend aplic.ie
        else (aplic.sourceAt i).pend aplic.ie
      else (aplic.sourceAt i, false)) := by
  have cleared := rmw_does aplic i .pending reg (· &&& ~~~ new)
  rw [put_and_not aplic .pending i reg new (.inl rfl)] at cleared
  have once (irq : Nat) (aplic : AplicDev) := aplicPendingInterrupt_does aplic irq source
  have loop := forM_does (fun ie s => s.pend ie) once _ (word_bits_nodup reg (aplic.words .pending reg))
    ((rmw .pending reg (· &&& ~~~ new)).state aplic)
  rw [cleared.source, cleared.ie] at loop
  simp only [mem_word_bits] at loop
  refine cleared.bind ?_ (.inl (by split <;> rfl))
  rw [forM_word aplicPendingInterrupt]
  by_cases here : i / 32 = reg
  · subst here
    have bit : (aplic.words .pending (i / 32)).getLsbD (i % 32) = (aplic.sourceAt i).pending := rfl
    have none : (aplic.sourceAt i).put i (i / 32) 0 .pending = { aplic.sourceAt i with pending := false } := by
      simp [put]
    rw [bit, none] at loop
    simp only [true_and] at loop ⊢
    cases pending : (aplic.sourceAt i).pending
    · rw [pending] at loop
      have same : ({ aplic.sourceAt i with pending := false } : AplicSource) = aplic.sourceAt i := by
        rw [← pending]
      rw [same, ite_self] at loop
      exact loop
    · rw [pending] at loop
      rw [if_pos rfl] at loop ⊢
      split at loop <;> simp_all
  · simp only [here, false_and, if_false] at loop ⊢
    exact loop

theorem aplicWriteSetie_does (smode : Bool) (reg : Nat) (val : BitVec 32) :
    ∃ touched : Bool, Does (aplicWriteSetie smode reg val) aplic i
      (if (i / 32 = reg ∧ val.getLsbD (i % 32) = true) ∧
          (aplic.sourceAt i).deleg = smode ∧ (aplic.sourceAt i).enabled = false then
        (aplic.sourceAt i).step aplic.ie (.enable smode)
      else if touched then (aplic.sourceAt i).renotify aplic.ie else (aplic.sourceAt i, false)) := by
  by_cases inside : reg < aplicSrcRegs
  swap
  · refine ⟨false, ?_⟩
    rw [aplicWriteSetie, if_neg inside]
    refine .skip (if_neg ?_)
    rintro ⟨⟨rfl, -⟩, -⟩
    exact inside (isSource_word source)
  rw [aplicWriteSetie, if_pos inside]
  have newly := newly_enabled aplic (i := i) smode reg val
  have enable := aplicEnable_does aplic (i := i) reg (val &&& (aplicValidBits smode reg).value aplic)
  have value := aplicEnable_value aplic reg (val &&& (aplicValidBits smode reg).value aplic)
  rw [put_or] at enable
  rw [← value] at newly enable
  have again := renotify_does ((aplicEnable reg (val &&& (aplicValidBits smode reg).value aplic)).state aplic)
    source reg ((aplicEnable reg (val &&& (aplicValidBits smode reg).value aplic)).value aplic)
  by_cases new : (i / 32 = reg ∧ val.getLsbD (i % 32) = true) ∧
      (aplic.sourceAt i).deleg = smode ∧ (aplic.sourceAt i).enabled = false
  · obtain ⟨here, bit⟩ := newly.mpr new
    rw [if_pos ⟨here, bit⟩] at enable
    rw [enable.source, enable.ie, bit] at again
    refine ⟨true, (aplicValidBits_silent _ _).does (enable.bind ?_ (.inl rfl))⟩
    rw [if_pos new, AplicSource.step, if_pos new.2]
    refine .ite (fun _ => ?_) fun zero => ?_
    · simp only [here, true_and, if_true] at again
      exact again
    · rw [not_not.mp zero] at bit
      exact absurd bit (by simp)
  · rw [if_neg (mt newly.mp new)] at enable
    rw [enable.source, enable.ie] at again
    refine ⟨decide ((i / 32 = reg) ∧
      (aplicEnable reg (val &&& (aplicValidBits smode reg).value aplic)).value aplic ≠ 0),
      (aplicValidBits_silent _ _).does (enable.bind ?_ (.inl rfl))⟩
    rw [if_neg new]
    refine .ite (fun some => ?_) fun none => .skip ?_
    · by_cases here : i / 32 = reg
      · rw [if_neg fun bit => new (newly.mp ⟨here, bit⟩)] at again
        rw [if_pos (decide_eq_true ⟨here, some⟩)]
        simp only [here, true_and] at again
        exact again
      · rw [if_neg fun both => here both.1] at again
        rw [if_neg fun both => here (of_decide_eq_true both).1]
        exact again
    · rw [if_neg fun both => none (of_decide_eq_true both).2, enable.source]

omit source in
theorem aplicDelegate_does (smode : Bool) (val : BitVec 32) : Does (aplicDelegate smode irq val) aplic i
    ({ aplic.sourceAt i with deleg := if i = irq ∧ smode = false then val &&& aplicSourcecfgDelegate != 0
        else (aplic.sourceAt i).deleg }, false) := by
  cases smode with
  | true =>
    refine .skip ?_
    rw [if_neg (by simp)]
  | false =>
    simp only [and_true]
    rw [aplicDelegate, if_pos (by decide)]
    refine .ite (fun set => ?_) fun clear => ?_
    · have stored := (rmw_does aplic i .deleg (irq / 32) (· ||| mask irq)).discard
      rw [put, AplicDev.sourceAt, put_mask] at stored
      rw [bne_iff_ne.mpr set]
      exact stored
    · have stored := (rmw_does aplic i .deleg (irq / 32) (· &&& ~~~ mask irq)).discard
      rw [put, AplicDev.sourceAt, put_not_mask] at stored
      rw [bne_eq_false_iff_eq.mpr (not_not.mp clear)]
      exact stored

omit source in
theorem invertInput_does (c : Prop) [Decidable c] :
    Does (if c then discard (atomicOr .invert (irq / 32) (mask irq))
        else discard (atomicAnd .invert (irq / 32) (~~~ mask irq))) aplic i
      ({ aplic.sourceAt i with invert := if i = irq then decide c else (aplic.sourceAt i).invert }, false) := by
  refine .ite (fun inverted => ?_) fun straight => ?_
  · have stored := (rmw_does aplic i .invert (irq / 32) (· ||| mask irq)).discard
    rw [put, AplicDev.sourceAt, put_mask] at stored
    rw [decide_eq_true inverted]
    exact stored
  · have stored := (rmw_does aplic i .invert (irq / 32) (· &&& ~~~ mask irq)).discard
    rw [put, AplicDev.sourceAt, put_not_mask] at stored
    rw [decide_eq_false straight]
    exact stored

omit source in
theorem configure_does (cfg : BitVec 32) (c : Prop) [Decidable c] :
    Does (do
        store .source irq cfg
        if c then discard (atomicOr .invert (irq / 32) (mask irq))
          else discard (atomicAnd .invert (irq / 32) (~~~ mask irq))) aplic i
      (if i = irq then { aplic.sourceAt i with source := cfg, invert := decide c } else aplic.sourceAt i,
        false) := by
  have stored := store_does aplic i .source irq cfg
  refine stored.bind ?_ (.inr rfl)
  have inverted := invertInput_does ((store .source irq cfg).state aplic) irq c (i := i)
  rw [stored.source, put] at inverted
  by_cases here : i = irq
  · simpa [here] using inverted
  · simpa [here] using inverted

theorem aplicWriteSourcecfg_does (smode : Bool) (val : BitVec 32) :
    Does (aplicWriteSourcecfg smode irq val) aplic i
    ((aplic.sourceAt i).step aplic.ie (if i = irq then .configure smode val else .none)) := by
  refine .ite (fun valid => ?_) fun other => .skip (by rw [if_neg (by rintro rfl; exact other source)]; rfl)
  have delegated := aplicDelegate_does (i := i) aplic irq smode val
  refine delegated.bind ((aplicValidSrc_silent _ _).does ?_) (.inr (by split <;> rfl))
  rw [aplicValidSrc_value]
  have configured := configure_does ((aplicDelegate smode irq val).state aplic) (i := i) irq
    (val &&& aplicSourcecfgMask)
    (val &&& aplicSourcecfgMask = aplicSourcecfgLvlLow ∨ val &&& aplicSourcecfgMask = aplicSourcecfgEdgeFall)
  by_cases here : i = irq
  · subst here
    rw [if_pos rfl, AplicSource.step]
    have moved : (if smode = true then aplic.sourceAt i
        else { aplic.sourceAt i with deleg := val &&& aplicSourcecfgDelegate != 0 }) =
          ((aplicDelegate smode i val).state aplic).sourceAt i := by
      rw [delegated.source]
      cases smode <;> simp
    simp only [moved]
    rw [if_pos rfl] at configured
    refine .ite (fun own => ?_) fun other => .skip ?_
    · rw [if_pos (of_decide_eq_true own)]
      exact configured
    · rw [if_neg fun own => other (decide_eq_true own)]
  · have kept : ((aplicDelegate smode irq val).state aplic).sourceAt i = aplic.sourceAt i := by
      rw [delegated.source, if_neg fun both => here both.1]
    rw [if_neg here, kept] at configured
    rw [if_neg here]
    exact .ite (fun _ => configured) fun _ => .skip (by rw [kept]; rfl)

omit source in
theorem aplicWriteTarget_does (smode : Bool) (val : BitVec 32) : Does (aplicWriteTarget smode irq val) aplic i
    ((aplic.sourceAt i).step aplic.ie (if i = irq then .retarget smode val else .none)) := by
  refine (aplicValidSrc_silent _ _).does ?_
  rw [aplicValidSrc_value, step_ite, AplicSource.step]
  have stored := store_does aplic i .target irq val
  rw [put] at stored
  by_cases here : i = irq
  · subst here
    rw [if_pos rfl] at stored
    rw [if_pos rfl]
    refine .ite (fun own => ?_) fun other => .skip ?_
    · rw [if_pos (of_decide_eq_true own)]
      exact stored
    · rw [if_neg fun own => other (decide_eq_true own)]
  · rw [if_neg here] at stored
    rw [if_neg here]
    exact .ite (fun _ => stored) fun _ => .skip rfl

end Effects

/-! The window as a whole. -/

def AplicSource.Settled (ie : Bool → Bool) (s : AplicSource) : Prop := ¬ (s.pending = true ∧ s.forwards ie = true)

theorem AplicSource.renotify_source (ie : Bool → Bool) (s : AplicSource) : (s.renotify ie).1 = s := by
  rw [renotify]
  cases pending : s.pending
  · rfl
  · rw [if_pos rfl, pend]
    split
    · rfl
    · rw [← pending]

theorem AplicSource.Settled.renotify {ie : Bool → Bool} {s : AplicSource} (settled : s.Settled ie) :
    (s.renotify ie).2 = false := by
  rw [AplicSource.renotify]
  split
  · next pending => rw [pend, if_neg fun forwards => settled ⟨pending, forwards⟩]
  · rfl

theorem mask_hit (i irq : Nat) : (i / 32 = irq / 32 ∧ (mask irq).getLsbD (i % 32) = true) ↔ i = irq := by
  rw [getLsbD_mask irq _ (Nat.mod_lt i (by decide)), decide_eq_true_eq]
  exact (index_eq_iff irq i).symm

section Window

variable (aplic : AplicDev) {i : Nat} (source : isSource i = true) (smode : Bool) (data val : BitVec 32)
include source

theorem aplicWriteClrip_does (reg : Nat) : Does (aplicWriteClear smode .pending reg val) aplic i
    ((aplic.sourceAt i).step aplic.ie
      (if i / 32 = reg ∧ val.getLsbD (i % 32) = true then .clear smode else .none)) := by
  have clear := aplicWriteClear_does aplic source (.inl rfl) smode reg val
  rw [step_ite, AplicSource.step]
  simpa [put, ite_and, apply_ite (Prod.mk · false)] using clear

theorem aplicWriteClrie_does (reg : Nat) : Does (aplicWriteClear smode .enabled reg val) aplic i
    ((aplic.sourceAt i).step aplic.ie
      (if i / 32 = reg ∧ val.getLsbD (i % 32) = true then .disable smode else .none)) := by
  have clear := aplicWriteClear_does aplic source (.inr rfl) smode reg val
  rw [step_ite, AplicSource.step]
  simpa [put, ite_and, apply_ite (Prod.mk · false)] using clear

/-- A message may go out again for a source that should have been forwarded before. -/
theorem aplicWriteSetie_steps (reg : Nat) {input : SourceInput}
    (means : input = if i / 32 = reg ∧ val.getLsbD (i % 32) = true then .enable smode else .none) : ∃ sent,
    Does (aplicWriteSetie smode reg val) aplic i (((aplic.sourceAt i).step aplic.ie input).1, sent) ∧
    ((aplic.sourceAt i).Settled aplic.ie → sent = ((aplic.sourceAt i).step aplic.ie input).2) := by
  obtain ⟨touched, does⟩ := aplicWriteSetie_does aplic source smode reg val
  by_cases new : (i / 32 = reg ∧ val.getLsbD (i % 32) = true) ∧
      (aplic.sourceAt i).deleg = smode ∧ (aplic.sourceAt i).enabled = false
  · rw [if_pos new] at does
    rw [means, if_pos new.1]
    exact ⟨_, does, fun _ => rfl⟩
  · have nothing : (aplic.sourceAt i).step aplic.ie input = (aplic.sourceAt i, false) := by
      rw [means, step_ite, AplicSource.step, ← ite_and, if_neg new]
    rw [if_neg new] at does
    rw [nothing]
    cases touched with
    | false => exact ⟨false, does, fun _ => rfl⟩
    | true =>
      refine ⟨((aplic.sourceAt i).renotify aplic.ie).2, ?_, fun settled => settled.renotify⟩
      have same := (aplic.sourceAt i).renotify_source aplic.ie
      rw [← Prod.mk.eta (p := (aplic.sourceAt i).renotify aplic.ie), same] at does
      exact does

theorem aplicWriteReg_does {reg : AplicReg} (sources : reg ≠ .domaincfg) : ∃ sent,
    Does (aplicWriteReg smode data val reg) aplic i
      (((aplic.sourceAt i).step aplic.ie (reg.sourceInput smode data val i)).1, sent) ∧
    ((aplic.sourceAt i).Settled aplic.ie →
      sent = ((aplic.sourceAt i).step aplic.ie (reg.sourceInput smode data val i)).2) := by
  have exactly {p : AplicM Unit} {next : AplicSource × Bool} (does : Does p aplic i next) :
      ∃ sent, Does p aplic i (next.1, sent) ∧ ((aplic.sourceAt i).Settled aplic.ie → sent = next.2) :=
    ⟨next.2, does, fun _ => rfl⟩
  cases reg with
  | domaincfg => exact absurd rfl sources
  | setipnum | setipnumLe | setipnumBe => exact exactly (aplicWriteSetipnum_does aplic _ source smode)
  | clripnum =>
    have does := aplicWriteClrip_does aplic source smode (mask val.toNat) (val.toNat / 32)
    simp only [mask_hit] at does
    exact exactly does
  | clrienum =>
    have does := aplicWriteClrie_does aplic source smode (mask val.toNat) (val.toNat / 32)
    simp only [mask_hit] at does
    exact exactly does
  | setienum =>
    refine aplicWriteSetie_steps aplic source smode (mask val.toNat) (val.toNat / 32) ?_
    simp only [mask_hit]
    rfl
  | setip reg => exact exactly (aplicWriteSetip_does aplic source smode reg val)
  | inClrip reg => exact exactly (aplicWriteClrip_does aplic source smode val reg)
  | setie reg => exact aplicWriteSetie_steps aplic source smode val reg rfl
  | clrie reg => exact exactly (aplicWriteClrie_does aplic source smode val reg)
  | sourcecfg irq => exact exactly (aplicWriteSourcecfg_does aplic irq source smode val)
  | target irq => exact exactly (aplicWriteTarget_does aplic irq smode val)
  | genmsi => exact exactly (aplicGenMsi_does aplic i nofun)
  | msiaddrcfgh | unmapped => exact exactly (.skip rfl)

end Window

end Rvvm.Aplic
