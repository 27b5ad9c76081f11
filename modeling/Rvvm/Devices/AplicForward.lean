import Rvvm.Library.Runs
import Rvvm.Devices.AplicEffects

/-! Forwarding. A source that is pending and enabled in an enabled domain is to leave as one message and not
stay pending. The two writes that can make one so without looking at it are those that enable a domain and
those that move a source to another domain, and a source whose target names no hart is dropped unsent. -/
namespace Rvvm.Aplic
open Emitting Runs
open Bool hiding and_assoc

inductive AplicInput where
  | write (smode : Bool) (off : Nat) (data : BitVec 32)
  | setIrq (irq : Nat) (lvl : Bool)

def AplicInput.run : AplicInput → AplicM Unit
  | .write smode off data => aplicMmioWrite smode off data
  | .setIrq irq lvl => aplicSetIrq irq lvl

def aplicStep (aplic : AplicDev) (input : AplicInput) : AplicDev := input.run.state aplic

def AplicInput.sourceInput (aplic : AplicDev) (i : Nat) : AplicInput → SourceInput
  | .write smode off data => (aplicReg off).sourceInput smode data (domainOrder (aplic.config smode) data) i
  | .setIrq irq lvl => if i = irq then .line lvl else .none

namespace AplicSource

variable (s : AplicSource)

/-- The input makes the source pending. -/
def asserted : SourceInput → Bool
  | .line lvl => s.raised != lvl && (lvl ^^ s.invert) && !s.detached
  | .assert smode => s.deleg == smode && (s.rectified || s.detached)
  | _ => false

def cleared : SourceInput → Bool
  | .clear smode => s.deleg == smode
  | _ => false

def due (input : SourceInput) : Bool := (s.pending || s.asserted input) && !s.cleared input

/-- The source is asserted while it forwards, or enabled while it is pending in an enabled domain. -/
def released (ie : Bool → Bool) : SourceInput → Bool
  | .enable smode => s.deleg == smode && !s.enabled && s.pending && ie s.deleg
  | input => s.asserted input && s.forwards ie

end AplicSource

/-- After the input no source is left to forward, and each that was due in an enabled domain was sent once. -/
def Forwarded (aplic : AplicDev) (input : AplicInput) : Prop := ∀ i, isSource i = true →
  ((aplicStep aplic input).sourceAt i).Settled (aplicStep aplic input).ie ∧
  msisFor i (input.run.events aplic) =
    if (aplic.sourceAt i).due (input.sourceInput aplic i) &&
        ((aplicStep aplic input).sourceAt i).forwards (aplicStep aplic input).ie
    then [((aplicStep aplic input).sourceAt i).message i] else []

/-- A domain is enabled only while it has nothing pending and enabled, and a source that is pending and
enabled moves to no enabled domain. -/
def DomainsOk (aplic : AplicDev) : AplicInput → Prop
  | .setIrq _ _ => True
  | .write smode off data =>
    let val := domainOrder (aplic.config smode) data
    match aplicReg off with
    | .domaincfg => val &&& aplicDomaincfgIe ≠ 0 → ∀ i, isSource i = true →
        (aplic.sourceAt i).deleg = smode →
          ¬ ((aplic.sourceAt i).pending = true ∧ (aplic.sourceAt i).enabled = true)
    | .sourcecfg irq => isSource irq = true → smode = false →
        (aplic.sourceAt irq).pending = true ∧ (aplic.sourceAt irq).enabled = true →
        aplic.ie (val &&& aplicSourcecfgDelegate != 0) = false
    | _ => True

/-- The target of every source the input releases names a hart of the machine. -/
def TargetsOk (aplic : AplicDev) (input : AplicInput) : Prop := ∀ i, isSource i = true →
  (aplic.sourceAt i).released aplic.ie (input.sourceInput aplic i) = true →
    hartid (aplic.sourceAt i).target < aplic.harts

def ForwardOk (aplic : AplicDev) (input : AplicInput) : Prop := DomainsOk aplic input ∧ TargetsOk aplic input

/-! One source. -/

/-- The part of the condition that is about one source. -/
def AplicSource.StepOk (ie : Bool → Bool) (s : AplicSource) : SourceInput → Prop
  | .configure false val =>
    s.pending = true ∧ s.enabled = true → ie (val &&& aplicSourcecfgDelegate != 0) = false
  | _ => True

section Source

variable {ie : Bool → Bool} {s : AplicSource}

theorem settled_iff : s.Settled ie ↔ (s.pending && s.forwards ie) = false := by
  rw [AplicSource.Settled, ← and_eq_true, not_eq_true]

theorem quiet_iff {next : AplicSource} {due : Bool} (same : next.pending = due) :
    (next.Settled ie ∧ false = (due && next.forwards ie)) ↔ (due && next.forwards ie) = false := by
  rw [settled_iff, same]
  exact ⟨fun both => both.1, fun none => ⟨none, none.symm⟩⟩

theorem pend_forwarded (settled : s.Settled ie) :
    (s.pend ie).1.Settled ie ∧ (s.pend ie).2 = (s.pend ie).1.forwards ie := by
  rw [AplicSource.pend]
  split
  · next forwards => exact ⟨settled, forwards.symm⟩
  · next off => exact ⟨fun both => off both.2, (eq_false_iff.mpr off).symm⟩

variable {input : SourceInput}

theorem due_eq_pending (asserted : s.asserted input = false)
    (cleared : s.cleared input = false) :
    s.due input = s.pending := by
  rw [AplicSource.due, asserted, cleared, Bool.or_false, Bool.not_false, Bool.and_true]

theorem due_of_asserted (asserted : s.asserted input = true)
    (cleared : s.cleared input = false) :
    s.due input = true := by
  rw [AplicSource.due, asserted, cleared, Bool.or_true, Bool.not_false, Bool.and_true]

theorem step_forwarded_iff (settled : s.Settled ie) (input : SourceInput) :
    ((s.step ie input).1.Settled ie ∧ (s.step ie input).2 = (s.due input && (s.step ie input).1.forwards ie)) ↔
      s.StepOk ie input := by
  have none := settled_iff.mp settled
  have kept (next : AplicSource) (pending : next.pending = s.pending) (forwards : next.forwards ie = s.forwards ie)
      (asserted : s.asserted input = false) (cleared : s.cleared input = false) :
      next.Settled ie ∧ false = (s.due input && next.forwards ie) := by
    rw [due_eq_pending asserted cleared]
    exact (quiet_iff pending).mpr (by rw [forwards, none])
  cases input with
  | line lvl =>
    refine iff_of_true ?_ trivial
    rw [AplicSource.step]
    split
    · next same => exact kept s rfl rfl (by rw [AplicSource.asserted, same, bne_self_eq_false]; rfl) rfl
    · next edge =>
        have moved : ({ s with raised := lvl } : AplicSource).Settled ie := settled
        have asserted : s.asserted (.line lvl) = ((lvl ^^ s.invert) && !s.detached) := by
          rw [AplicSource.asserted, bne_iff_ne.mpr edge, Bool.true_and]
        dsimp only
        split
        · next active =>
            obtain ⟨after, sent⟩ := pend_forwarded moved
            refine ⟨after, sent.trans ?_⟩
            rw [due_of_asserted (asserted.trans active) rfl, Bool.true_and]
        · next flat => exact kept _ rfl rfl (asserted.trans (eq_false_iff.mpr flat)) rfl
  | assert smode =>
    refine iff_of_true ?_ trivial
    rw [AplicSource.step]
    split
    · next ungated =>
        obtain ⟨after, sent⟩ := pend_forwarded settled
        refine ⟨after, sent.trans ?_⟩
        rw [due_of_asserted (by rw [AplicSource.asserted, beq_iff_eq.mpr ungated.1, ungated.2]; rfl) rfl,
          Bool.true_and]
    · next gated =>
        refine kept s rfl rfl ?_ rfl
        rw [AplicSource.asserted, eq_false_iff, ne_eq, and_eq_true, beq_iff_eq]
        exact gated
  | clear smode =>
    refine iff_of_true ?_ trivial
    rw [AplicSource.step]
    split
    · next own =>
        have due : s.due (.clear smode) = false := by
          rw [AplicSource.due, AplicSource.cleared, beq_iff_eq.mpr own, Bool.not_true, Bool.and_false]
        exact (quiet_iff due.symm).mpr (by rw [due, Bool.false_and])
    · next other => exact kept s rfl rfl rfl (beq_eq_false_iff_ne.mpr other)
  | enable smode =>
    refine iff_of_true ?_ trivial
    rw [AplicSource.step]
    split
    · dsimp only
      split
      · next pending =>
          have due : s.due (.enable smode) = true := (due_eq_pending rfl rfl).trans pending
          have settled : ({ s with enabled := true, pending := false } : AplicSource).Settled ie :=
            fun both => false_ne_true both.1
          obtain ⟨after, sent⟩ := pend_forwarded settled
          rw [due]
          exact ⟨after, sent⟩
      · next idle =>
          have due : s.due (.enable smode) = false := (due_eq_pending rfl rfl).trans (eq_false_iff.mpr idle)
          refine (quiet_iff ?_).mpr ?_
          · exact (due_eq_pending (rfl : s.asserted (.enable smode) = false) rfl).symm
          · rw [due, Bool.false_and]
    · exact kept s rfl rfl rfl rfl
  | disable smode =>
    refine iff_of_true ?_ trivial
    rw [AplicSource.step]
    split
    · refine (quiet_iff ?_).mpr ?_
      · exact (due_eq_pending (rfl : s.asserted (.disable smode) = false) rfl).symm
      · exact and_false _
    · exact kept s rfl rfl rfl rfl
  | configure smode val =>
    cases smode with
    | true =>
      refine iff_of_true ?_ trivial
      simp only [AplicSource.step, if_true]
      split <;> exact kept _ rfl rfl rfl rfl
    | false =>
      have due : s.due (.configure false val) = s.pending := due_eq_pending rfl rfl
      have moved (next : AplicSource) (pending : next.pending = s.pending)
          (forwards : next.forwards ie = (s.enabled && ie (val &&& aplicSourcecfgDelegate != 0))) :
          (next.Settled ie ∧ false = (s.due (.configure false val) && next.forwards ie)) ↔
            s.StepOk ie (.configure false val) := by
        rw [quiet_iff (pending.trans due.symm), due, forwards, ← Bool.and_assoc, AplicSource.StepOk,
          ← and_eq_true]
        cases (s.pending && s.enabled) <;> simp
      simp only [AplicSource.step, false_eq_true, if_false]
      split <;> exact moved _ rfl rfl
  | retarget smode val =>
    refine iff_of_true ?_ trivial
    rw [AplicSource.step]
    split <;> exact kept _ rfl rfl rfl rfl
  | none => exact iff_of_true (kept s rfl rfl rfl rfl) trivial

theorem pend_sends : (s.pend ie).2 = s.forwards ie := by
  rw [AplicSource.pend]
  cases s.forwards ie <;> rfl

/-- A source is sent exactly by what releases it. -/
theorem step_sends (ie : Bool → Bool) (s : AplicSource) (input : SourceInput) :
    (s.step ie input).2 = s.released ie input := by
  cases input with
  | line lvl =>
    simp only [AplicSource.step, AplicSource.released, AplicSource.asserted]
    by_cases same : s.raised = lvl
    · rw [if_pos same, same, bne_self_eq_false]
      rfl
    · rw [if_neg same, bne_iff_ne.mpr same, Bool.true_and, apply_ite Prod.snd, pend_sends]
      show (if ((lvl ^^ s.invert) && !s.detached) = true then s.forwards ie else false) =
        (((lvl ^^ s.invert) && !s.detached) && s.forwards ie)
      cases (lvl ^^ s.invert) && !s.detached <;> rfl
  | assert smode =>
    simp only [AplicSource.step, AplicSource.released, AplicSource.asserted]
    rw [apply_ite Prod.snd, pend_sends]
    by_cases own : s.deleg = smode
    · cases s.rectified || s.detached <;> simp [own]
    · simp [own]
  | enable smode =>
    simp only [AplicSource.step, AplicSource.released]
    rw [apply_ite Prod.snd, apply_ite Prod.snd, pend_sends]
    cases enabled : s.enabled <;> cases pending : s.pending <;> by_cases own : s.deleg = smode <;>
      simp [own, AplicSource.forwards]
  | clear | disable | configure | retarget | none => rfl

theorem due_of_sends (settled : s.Settled ie) (sends : (s.step ie input).2 = true) :
    (s.due input && (s.step ie input).1.forwards ie) = true := by
  cases input with
  | line | assert | enable =>
    rw [← ((step_forwarded_iff settled _).mpr (by trivial)).2]
    exact sends
  | clear | disable | configure | retarget | none => exact absurd sends false_ne_true

theorem pend_message (i : Nat) : (s.pend ie).1.message i = s.message i := by
  rw [AplicSource.pend]
  split <;> rfl

theorem step_message (i : Nat) (sends : (s.step ie input).2 = true) :
    (s.step ie input).1.message i = s.message i := by
  cases input with
  | line lvl =>
    dsimp only [AplicSource.step]
    split
    · rfl
    · split
      · exact pend_message i
      · rfl
  | assert smode =>
    dsimp only [AplicSource.step]
    split
    · exact pend_message i
    · rfl
  | enable smode =>
    dsimp only [AplicSource.step]
    split
    · split
      · exact pend_message i
      · rfl
    · rfl
  | clear | disable | configure | retarget | none => exact absurd sends false_ne_true

end Source

def Settled (aplic : AplicDev) : Prop := ∀ i, isSource i = true → (aplic.sourceAt i).Settled aplic.ie

/-- The input is a step of source `i`, and sends what the step asks for if nothing was left over. -/
def StepsSource (aplic : AplicDev) (input : AplicInput) (i : Nat) : Prop := ∃ sent,
  Does input.run aplic i (((aplic.sourceAt i).step aplic.ie (input.sourceInput aplic i)).1, sent) ∧
  ((aplic.sourceAt i).Settled aplic.ie → sent = ((aplic.sourceAt i).step aplic.ie (input.sourceInput aplic i)).2)

theorem setIrq_stepsSource (aplic : AplicDev) (irq : Nat) (lvl : Bool) {i : Nat} (source : isSource i = true) :
    StepsSource aplic (.setIrq irq lvl) i := ⟨_, aplicSetIrq_does aplic irq source lvl, fun _ => rfl⟩

theorem write_stepsSource (aplic : AplicDev) (smode : Bool) {off : Nat} (data : BitVec 32)
    (sources : aplicReg off ≠ .domaincfg) {i : Nat} (source : isSource i = true) :
    StepsSource aplic (.write smode off data) i := by
  obtain ⟨sent, done, exactly⟩ :=
    aplicWriteReg_does aplic source smode data (domainOrder (aplic.config smode) data) sources
  exact ⟨sent, (loadConfig_silent smode).does done, exactly⟩

section Step

variable {aplic : AplicDev} (settled : Settled aplic)
include settled

theorem forwarded_iff_stepOk {input : AplicInput} (steps : ∀ i, isSource i = true → StepsSource aplic input i) :
    Forwarded aplic input ↔
      (∀ i, isSource i = true → (aplic.sourceAt i).StepOk aplic.ie (input.sourceInput aplic i)) ∧
        TargetsOk aplic input := by
  rw [TargetsOk, ← forall₂_and]
  refine forall_congr' fun i => forall_congr' fun source => ?_
  obtain ⟨sent, done, exactly⟩ := steps i source
  have ie : (aplicStep aplic input).ie = aplic.ie := done.ie
  have next : (aplicStep aplic input).sourceAt i = _ := done.source
  rw [← step_forwarded_iff (settled i source), ie, next, done.sent, exactly (settled i source), ← step_sends]
  refine .trans (and_congr_right fun _ => ?_) and_assoc.symm
  cases sends : ((aplic.sourceAt i).step aplic.ie (input.sourceInput aplic i)).2
  · cases (aplic.sourceAt i).due _ && _ <;> simp
  · rw [due_of_sends (settled i source) sends, step_message i sends, AplicSource.messages]
    by_cases known : hartid (aplic.sourceAt i).target < aplic.harts <;> simp [known]

omit settled in
theorem stepOk_iff_domainsOk (smode : Bool) {off : Nat} (data : BitVec 32) (sources : aplicReg off ≠ .domaincfg) :
    (∀ i, isSource i = true →
        (aplic.sourceAt i).StepOk aplic.ie ((AplicInput.write smode off data).sourceInput aplic i)) ↔
      DomainsOk aplic (.write smode off data) := by
  dsimp only [AplicInput.sourceInput, DomainsOk]
  cases reg : aplicReg off with
  | domaincfg => exact absurd reg sources
  | sourcecfg irq =>
    dsimp only [AplicReg.sourceInput]
    constructor
    · rintro ok source rfl
      have at_irq := ok irq source
      rw [if_pos rfl] at at_irq
      exact at_irq
    · intro ok i source
      split
      · next here =>
          subst here
          cases smode with
          | true => trivial
          | false => exact ok source rfl
      · trivial
  | setipnum | clripnum | setienum | clrienum | setipnumLe | setipnumBe | target | setip | inClrip | setie | clrie =>
    refine iff_of_true (fun i _ => ?_) trivial
    dsimp only [AplicReg.sourceInput]
    split <;> trivial
  | genmsi | msiaddrcfgh | unmapped => exact iff_of_true (fun _ _ => trivial) trivial

theorem forwarded_domaincfg_iff (smode : Bool) {off : Nat} (data : BitVec 32) (reg : aplicReg off = .domaincfg) :
    Forwarded aplic (.write smode off data) ↔ ForwardOk aplic (.write smode off data) := by
  have none (i : Nat) : (AplicInput.write smode off data).sourceInput aplic i = .none := by
    rw [AplicInput.sourceInput, reg]
    rfl
  have targets : TargetsOk aplic (.write smode off data) := by
    intro i _ released
    rw [none] at released
    exact absurd released false_ne_true
  have run := aplicMmioWrite_domaincfg smode data reg
  have next : aplicStep aplic (.write smode off data) = { aplic with
      config := Function.update aplic.config smode
        (domainOrder (aplic.config smode) data &&& aplicDomaincfgMask) } := by
    rw [aplicStep, AplicInput.run, run]
    rfl
  have events : (AplicInput.write smode off data).run.events aplic = [] := by
    rw [AplicInput.run, run]
    rfl
  have ie (d : Bool) : (aplicStep aplic (.write smode off data)).ie d =
      if d = smode then domainOrder (aplic.config smode) data &&& aplicDomaincfgIe != 0 else aplic.ie d := by
    rw [next, AplicDev.ie]
    dsimp only
    by_cases own : d = smode
    · rw [if_pos own, own, Function.update_self, BitVec.and_assoc]
      rfl
    · rw [if_neg own, Function.update_of_ne own, AplicDev.ie]
  have same (i : Nat) : (aplicStep aplic (.write smode off data)).sourceAt i = aplic.sourceAt i := by
    rw [next]
    rfl
  have left : Forwarded aplic (.write smode off data) ↔
      ∀ i, isSource i = true → (aplic.sourceAt i).Settled (aplicStep aplic (.write smode off data)).ie := by
    refine forall_congr' fun i => forall_congr' fun source => ?_
    rw [same, events, none, due_eq_pending rfl rfl]
    refine and_iff_left_of_imp fun quiet => ?_
    rw [settled_iff.mp quiet]
    rfl
  rw [left, ForwardOk, and_iff_left targets]
  dsimp only [DomainsOk]
  rw [reg]
  constructor
  · intro quiet set i source own both
    refine quiet i source ⟨both.1, ?_⟩
    rw [AplicSource.forwards, both.2, ie, if_pos own, bne_iff_ne.mpr set, Bool.and_self]
  · rintro ok i source ⟨pending, forwards⟩
    rw [AplicSource.forwards, and_eq_true, ie] at forwards
    by_cases own : (aplic.sourceAt i).deleg = smode
    · rw [if_pos own] at forwards
      exact ok (bne_iff_ne.mp forwards.2) i source own ⟨pending, forwards.1⟩
    · rw [if_neg own, ← and_eq_true] at forwards
      exact settled i source ⟨pending, forwards⟩

theorem forwarded_iff (input : AplicInput) : Forwarded aplic input ↔ ForwardOk aplic input := by
  cases input with
  | setIrq irq lvl =>
    rw [forwarded_iff_stepOk settled fun i source => setIrq_stepsSource aplic irq lvl source]
    refine and_congr_left fun _ => iff_of_true (fun i source => ?_) trivial
    dsimp only [AplicInput.sourceInput]
    split <;> trivial
  | write smode off data =>
    by_cases domain : aplicReg off = .domaincfg
    · exact forwarded_domaincfg_iff settled smode data domain
    · rw [forwarded_iff_stepOk settled fun i source => write_stepsSource aplic smode data domain source]
      exact and_congr_left fun _ => stepOk_iff_domainsOk smode data domain

end Step

theorem settled_aplicInit (harts : Nat) : Settled (aplicInit harts) := by
  rintro i source ⟨pending, -⟩
  have none : ((aplicInit harts).sourceAt i).pending = false := BitVec.getLsbD_zero
  exact false_ne_true (none.symm.trans pending)

/-- Source 1 is enabled and then asserted while the supervisor domain is off; enabling the domain leaves it
pending, with no message out. -/
theorem enabling_domain_strands_source :
    let before := final aplicStep (aplicInit 1) [.write true 0x1EDC 1, .write true 0x1CDC 1]
    let enable : AplicInput := .write true 0 0x100
    ((aplicStep before enable).sourceAt 1).pending = true ∧
      ((aplicStep before enable).sourceAt 1).forwards (aplicStep before enable).ie = true ∧
      msisFor 1 (enable.run.events before) = [] := by
  decide +kernel

/-- In a run from reset, every input is forwarded exactly when every step is in order. -/
theorem forwards_iff_ordered (harts : Nat) (inputs : List AplicInput) :
    AllSteps aplicStep Forwarded (aplicInit harts) inputs ↔
      AllSteps aplicStep ForwardOk (aplicInit harts) inputs := by
  have keeps (aplic : AplicDev) (input : AplicInput) (forwarded : Forwarded aplic input) :
      Settled (aplicStep aplic input) := fun i source => (forwarded i source).1
  constructor
  · exact AllSteps.entails (fun aplic input _ => keeps aplic input)
      (fun aplic input settled => (forwarded_iff settled input).mp) (settled_aplicInit harts)
  · exact AllSteps.entails (fun aplic input settled ok => keeps aplic input ((forwarded_iff settled input).mpr ok))
      (fun aplic input settled => (forwarded_iff settled input).mpr) (settled_aplicInit harts)

end Rvvm.Aplic
