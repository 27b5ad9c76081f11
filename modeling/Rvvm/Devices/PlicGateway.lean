import Rvvm.Devices.PlicClaim

/-! The gateway of a source: between a claim and the completion that answers it, the source is in service and
is not to be claimed again. The controller keeps no such state, so what it has to rely on is said here. -/
namespace Rvvm.Plic
open BitWords Bool Runs

def claimedBySource (s : PlicDev) : PlicOp → Nat
  | .mmioRead off =>
    match plicReg off with
    | .claim ctx => (plicClaimIrq s ctx).1
    | _ => 0
  | _ => 0

/-- The operation writes a completion for the source through a context of the controller. -/
def completesThrough (s : PlicDev) (irq : Nat) : PlicOp → Option Nat
  | .mmioWrite off val =>
    match plicReg off with
    | .claim ctx => if ctx < plicCtxCount s ∧ val.toNat = irq ∧ irq < plicSrcLimit then some ctx else none
    | _ => none
  | _ => none

/-- The controller beside a record of which sources are in service. -/
structure Gateway where
  dev : PlicDev
  inService : Nat → Bool

/-- A completion counts where the source is enabled for the context. -/
def gatewayStep (g : Gateway) (op : PlicOp) : Gateway where
  dev := plicStep g.dev op
  inService := fun irq =>
    if irq ≠ 0 ∧ claimedBySource g.dev op = irq then true
    else match completesThrough g.dev irq op with
      | some ctx => g.inService irq && !plicIrqEnabled g.dev ctx irq
      | none => g.inService irq

def gatewayInit (harts : Nat) : Gateway := ⟨plicInit harts, fun _ => false⟩

def NotClaimedAgain (g : Gateway) (op : PlicOp) : Prop :=
  claimedBySource g.dev op ≠ 0 → g.inService (claimedBySource g.dev op) = false

def RearmedByCompletion (g : Gateway) (op : PlicOp) : Prop :=
  ∀ irq ctx, completesThrough g.dev irq op = some ctx → test g.dev.raised irq = true →
    plicIrqPending (plicStep g.dev op) irq = true

/-- A source in service has no rising edge, and with its line high no completion through a context for which
it is not enabled. -/
def GatewayOk (g : Gateway) : PlicOp → Prop
  | .setIrq irq lvl => lvl = true → irq < plicSrcLimit → g.inService irq = true → test g.dev.raised irq = true
  | op => ∀ irq ctx, completesThrough g.dev irq op = some ctx → test g.dev.raised irq = true →
      g.inService irq = true → plicIrqEnabled g.dev ctx irq = true

/-! Pending bits. -/

/-- The operation makes the source pending: a rising edge, or a completion while the line is high. -/
def Rearms (s : PlicDev) (irq : Nat) : PlicOp → Prop
  | .setIrq source lvl => source = irq ∧ lvl = true ∧ 0 < irq ∧ irq < plicSrcLimit ∧ test s.raised irq = false
  | op => (∃ ctx, completesThrough s irq op = some ctx) ∧ test s.raised irq = true

theorem plicClaimIrq_pending (s : PlicDev) (ctx irq : Nat) (nonzero : irq ≠ 0) :
    plicIrqPending (plicClaimIrq s ctx).2 irq =
      (decide (irq ≠ (plicClaimIrq s ctx).1) && plicIrqPending s irq) := by
  by_cases inside : ctx < plicCtxCount s
  · obtain ⟨claimed, pending⟩ := plicClaimIrq_eq s inside
    rw [claimed, plicIrqPending, pending]
    by_cases none : (plicScan s ctx).maxIrq = 0
    · rw [if_pos none, none, decide_eq_true nonzero, Bool.true_and]
      rfl
    · rw [if_neg none, test_clear]
      rfl
  · rw [plicClaimIrq, if_neg inside, decide_eq_true nonzero, Bool.true_and]

theorem plicCompleteIrq_pending (s : PlicDev) {ctx irq : Nat} (inside : ctx < plicCtxCount s ∧ irq < plicSrcLimit)
    (other : Nat) : plicIrqPending (plicCompleteIrq s ctx irq) other =
      (decide (other = irq ∧ test s.raised irq = true) || plicIrqPending s other) := by
  rw [plicCompleteIrq, if_pos inside]
  by_cases raised : test s.raised irq = true
  · rw [if_pos raised, plicIrqPending, (plicNotifyCtxIrq_raises _ _ _).regs.pending, test_set]
    simp [raised, plicIrqPending]
  · simp [raised]

variable {irq : Nat}

theorem plicSetIrq_pending (s : PlicDev) (source : Nat) (lvl : Bool)
    (pending : plicIrqPending (plicSetIrq s source lvl) irq = true) :
    plicIrqPending s irq = true ∨ Rearms s irq (.setIrq source lvl) := by
  by_contra neither
  obtain ⟨idle, quiet⟩ := not_or.mp neither
  rw [plicSetIrq] at pending
  split at pending
  · next valid =>
      split at pending
      · next high =>
          split at pending
          · exact idle pending
          · next low =>
              have armed : test (set s.pending source) irq = true := by
                dsimp only at pending
                split at pending
                · exact pending
                · rw [plicIrqPending, (plicNotifyIrq_raises _ _).regs.pending] at pending
                  exact pending
              rw [test_set, or_eq_true, decide_eq_true_eq] at armed
              rcases armed with rfl | before
              · exact quiet ⟨rfl, high, valid.1, valid.2, eq_false_iff.mpr low⟩
              · exact idle before
      · exact idle pending
  · exact idle pending

variable {op : PlicOp}

/-- A source that is pending after an operation was pending before and is not the one claimed, or was made so. -/
theorem plicStep_pending {s : PlicDev} (nonzero : irq ≠ 0)
    (pending : plicIrqPending (plicStep s op) irq = true) :
    (plicIrqPending s irq = true ∧ claimedBySource s op ≠ irq) ∨ Rearms s irq op := by
  cases op with
  | mmioRead off =>
    refine .inl ?_
    rw [plicStep, plicMmioRead] at pending
    rw [claimedBySource]
    cases reg : plicReg off with
    | claim ctx =>
      rw [reg] at pending
      rw [plicClaimIrq_pending s ctx irq nonzero, and_eq_true, decide_eq_true_eq] at pending
      exact ⟨pending.2, Ne.symm pending.1⟩
    | threshold | unmapped | enable | source =>
      rw [reg] at pending
      exact ⟨pending, Ne.symm nonzero⟩
  | mmioWrite off val =>
    rw [plicStep, plicMmioWrite] at pending
    cases reg : plicReg off with
    | claim ctx =>
      rw [reg] at pending
      dsimp only at pending
      by_cases inside : ctx < plicCtxCount s ∧ val.toNat < plicSrcLimit
      · rw [plicCompleteIrq_pending s inside, or_eq_true, decide_eq_true_eq] at pending
        rcases pending with ⟨rfl, raised⟩ | before
        · refine .inr ⟨⟨ctx, ?_⟩, raised⟩
          rw [completesThrough, reg]
          exact if_pos ⟨inside.1, rfl, inside.2⟩
        · exact .inl ⟨before, Ne.symm nonzero⟩
      · rw [plicCompleteIrq, if_neg inside] at pending
        exact .inl ⟨pending, Ne.symm nonzero⟩
    | threshold ctx =>
      rw [reg, plicIrqPending, (plicSetCtxThreshold_sources ..).pending] at pending
      exact .inl ⟨pending, Ne.symm nonzero⟩
    | unmapped =>
      rw [reg] at pending
      exact .inl ⟨pending, Ne.symm nonzero⟩
    | enable ctx word =>
      rw [reg, plicIrqPending, (plicSetEnableBits_sources ..).pending] at pending
      exact .inl ⟨pending, Ne.symm nonzero⟩
    | source off =>
      rw [reg, plicIrqPending, (plicSetIrqPrio_sources ..).pending] at pending
      exact .inl ⟨pending, Ne.symm nonzero⟩
  | setIrq source lvl =>
    refine (plicSetIrq_pending s source lvl pending).imp_left fun before => ⟨before, Ne.symm nonzero⟩

theorem claimedBySource_pending {s : PlicDev} (claims : claimedBySource s op ≠ 0) :
    plicIrqPending s (claimedBySource s op) = true := by
  cases op with
  | mmioRead off =>
    rw [claimedBySource] at claims ⊢
    cases reg : plicReg off with
    | claim ctx =>
      rw [reg] at claims
      dsimp only at claims ⊢
      by_cases inside : ctx < plicCtxCount s
      · rw [(plicClaimIrq_eq s inside).1] at claims ⊢
        exact plicScan_maxIrq_pending s ctx claims
      · rw [plicClaimIrq, if_neg inside] at claims
        exact absurd rfl claims
    | threshold | unmapped | enable | source =>
      rw [reg] at claims
      exact absurd rfl claims
  | mmioWrite | setIrq => exact absurd rfl claims

/-- A source in service is not pending. -/
def Closed (g : Gateway) : Prop := ∀ irq, irq ≠ 0 → g.inService irq = true → plicIrqPending g.dev irq = false

variable {g : Gateway}

theorem GatewayOk.not_rearms (ok : GatewayOk g op)
    (serving : g.inService irq = true)
    (unanswered : ∀ ctx, completesThrough g.dev irq op = some ctx → plicIrqEnabled g.dev ctx irq = false) :
    ¬ Rearms g.dev irq op := by
  cases op with
  | setIrq source lvl =>
    rintro ⟨rfl, high, -, small, low⟩
    exact nomatch low.symm.trans (ok high small serving)
  | mmioRead | mmioWrite =>
    rintro ⟨⟨ctx, completes⟩, raised⟩
    have enabled := ok irq ctx completes raised serving
    exact nomatch (unanswered ctx completes).symm.trans enabled

theorem gatewayStep_closed (closed : Closed g) (ok : GatewayOk g op) :
    Closed (gatewayStep g op) := by
  intro irq nonzero serving
  by_contra pending
  have source := plicStep_pending nonzero (not_eq_false _ ▸ pending)
  dsimp only [gatewayStep] at serving
  by_cases claims : irq ≠ 0 ∧ claimedBySource g.dev op = irq
  · rcases source with ⟨-, other⟩ | rearms
    · exact other claims.2
    · cases op with
      | mmioRead off => exact absurd rearms.1.choose_spec nofun
      | mmioWrite | setIrq => exact nonzero claims.2.symm
  · rw [if_neg claims] at serving
    have still : g.inService irq = true ∧
        ∀ ctx, completesThrough g.dev irq op = some ctx → plicIrqEnabled g.dev ctx irq = false := by
      cases completes : completesThrough g.dev irq op with
      | none =>
        rw [completes] at serving
        exact ⟨serving, nofun⟩
      | some ctx =>
        rw [completes] at serving
        rw [and_eq_true, not_eq_true'] at serving
        refine ⟨serving.1, fun other same => ?_⟩
        rw [← Option.some.inj same]
        exact serving.2
    rcases source with ⟨before, -⟩ | rearms
    · exact nomatch (closed irq nonzero still.1).symm.trans before
    · exact ok.not_rearms still.1 still.2 rearms

theorem notClaimedAgain_of_closed (closed : Closed g) (op : PlicOp) : NotClaimedAgain g op := by
  intro claims
  by_contra serving
  have idle := closed _ claims (not_eq_false _ ▸ serving)
  exact nomatch idle.symm.trans (claimedBySource_pending claims)

theorem rearmedByCompletion (g : Gateway) (op : PlicOp) : RearmedByCompletion g op := by
  intro irq ctx completes raised
  cases op with
  | mmioWrite off val =>
    rw [completesThrough] at completes
    rw [plicStep, plicMmioWrite]
    cases reg : plicReg off with
    | claim through =>
      rw [reg] at completes
      dsimp only at completes ⊢
      split at completes
      · next inside =>
          obtain ⟨valid, rfl, small⟩ := inside
          rw [plicCompleteIrq_pending g.dev ⟨valid, small⟩, decide_eq_true ⟨rfl, raised⟩, Bool.true_or]
      · cases completes
    | threshold | unmapped | enable | source =>
      rw [reg] at completes
      cases completes
  | mmioRead | setIrq => cases completes

/-- In every run a source whose line is high is pending again after its completion; and in every run whose
steps are in order no source is claimed again before a completion has answered its claim. -/
theorem gateway_holds (harts : Nat) (ops : List PlicOp) :
    (AllSteps gatewayStep GatewayOk (gatewayInit harts) ops →
      AllSteps gatewayStep NotClaimedAgain (gatewayInit harts) ops) ∧
    AllSteps gatewayStep RearmedByCompletion (gatewayInit harts) ops := by
  have start : Closed (gatewayInit harts) := nofun
  constructor
  · exact AllSteps.entails (fun _ _ closed ok => gatewayStep_closed closed ok)
      (fun _ op closed _ => notClaimedAgain_of_closed closed op) start
  · exact AllSteps.always rearmedByCompletion _ ops

def serveSourceOne : List PlicOp :=
  [.mmioWrite 0x4 1, .mmioWrite 0x2000 0b10, .setIrq 1 true, .mmioRead 0x200004, .mmioWrite 0x200004 1]

theorem gateway_holds_serving :
    AllSteps gatewayStep GatewayOk (gatewayInit 1) serveSourceOne ∧
      AllSteps gatewayStep NotClaimedAgain (gatewayInit 1) serveSourceOne := by
  have admitted : AllSteps gatewayStep GatewayOk (gatewayInit 1) serveSourceOne := by
    refine ⟨nofun, nofun, fun _ _ serving => ?_, nofun, fun irq ctx completes _ _ => ?_, trivial⟩
    · cases serving
    · have reg : plicReg 0x200004 = .claim 0 := rfl
      rw [completesThrough, reg] at completes
      dsimp only at completes
      split at completes
      · next inside =>
          obtain ⟨-, rfl, -⟩ := inside
          obtain rfl := Option.some.inj completes
          decide
      · exact absurd completes nofun
  exact ⟨admitted, (gateway_holds 1 serveSourceOne).1 admitted⟩

/-- Source 1 is claimed; its line goes down and up; and it is claimed again, with no completion written. -/
theorem claimed_again_after_edge :
    let g := final gatewayStep (gatewayInit 1)
      [.mmioWrite 0x4 1, .mmioWrite 0x2000 0b10, .setIrq 1 true, .mmioRead 0x200004, .setIrq 1 false,
        .setIrq 1 true]
    claimedBySource g.dev (.mmioRead 0x200004) = 1 ∧ g.inService 1 = true := by
  decide +kernel

end Rvvm.Plic
