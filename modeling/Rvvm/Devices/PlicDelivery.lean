import Rvvm.Devices.Plic

/-! Delivery: when a pending source has an eligible context, some eligible context
has its external-interrupt line asserted. -/
namespace Rvvm.Plic
open BitVec BitWords List Runs
open Function (update update_of_ne update_self)

def ctxLine (s : PlicDev) (ctx : Nat) : Bool :=
  (s.pendingIrqs (plicCtxHartid ctx)).getLsbD (plicCtxPrio ctx)

def Eligible (s : PlicDev) (ctx irq : Nat) : Prop :=
  ctx < plicCtxCount s ∧ plicIrqEnabled s ctx irq = true ∧ s.threshold ctx < s.prio irq

instance (s : PlicDev) (ctx irq : Nat) : Decidable (Eligible s ctx irq) :=
  inferInstanceAs (Decidable (_ ∧ _ ∧ _))

/-- If any context is eligible for the source, one of them has its line asserted. -/
def Delivered (s : PlicDev) (irq : Nat) : Prop :=
  (∃ ctx, Eligible s ctx irq) → ∃ ctx, Eligible s ctx irq ∧ ctxLine s ctx = true

def NoLostInterrupt (s : PlicDev) : Prop :=
  ∀ irq < plicSrcLimit, plicIrqPending s irq = true → Delivered s irq

/-- Two states that differ at most in the asserted lines. -/
structure SameRegs (s t : PlicDev) : Prop where
  harts : t.harts = s.harts
  prio : t.prio = s.prio
  pending : t.pending = s.pending
  raised : t.raised = s.raised
  enable : t.enable = s.enable
  threshold : t.threshold = s.threshold

namespace SameRegs

theorem refl (s : PlicDev) : SameRegs s s := ⟨rfl, rfl, rfl, rfl, rfl, rfl⟩

theorem trans {s t u : PlicDev} (first : SameRegs s t) (second : SameRegs t u) : SameRegs s u :=
  ⟨second.harts.trans first.harts, second.prio.trans first.prio,
    second.pending.trans first.pending, second.raised.trans first.raised,
    second.enable.trans first.enable, second.threshold.trans first.threshold⟩

variable {s t : PlicDev} (same : SameRegs s t)
include same

theorem eligible (ctx irq : Nat) : Eligible t ctx irq ↔ Eligible s ctx irq := by
  simp [Eligible, plicIrqEnabled, plicCtxCount, same.harts, same.enable, same.threshold, same.prio]

theorem irqPending (irq : Nat) : plicIrqPending t irq = plicIrqPending s irq := by
  simp [plicIrqPending, same.pending]

theorem ctxIrqs (ctx : Nat) : plicCtxIrqs t ctx = plicCtxIrqs s ctx := by
  simp [plicCtxIrqs, same.pending, same.enable]

theorem delivered {irq : Nat} (lines : ∀ ctx, ctxLine s ctx = true → ctxLine t ctx = true)
    (holds : Delivered s irq) : Delivered t irq := by
  rintro ⟨ctx, open_⟩
  obtain ⟨taker, takes, line⟩ := holds ⟨ctx, (same.eligible ctx irq).mp open_⟩
  exact ⟨taker, (same.eligible taker irq).mpr takes, lines taker line⟩

end SameRegs

theorem plicCtxPrio_lt (ctx : Nat) : plicCtxPrio ctx < 32 := by
  unfold plicCtxPrio
  split <;> decide

theorem ctx_eq_iff (ctx other : Nat) :
    other = ctx ↔ plicCtxHartid other = plicCtxHartid ctx ∧ plicCtxPrio other = plicCtxPrio ctx := by
  unfold plicCtxHartid plicCtxPrio
  split <;> split <;> omega

section
variable (s : PlicDev) (ctx : Nat)

theorem ctxLine_riscvInterrupt (other : Nat) :
    ctxLine (riscvInterrupt s ctx) other = (decide (other = ctx) || ctxLine s other) := by
  have small := plicCtxPrio_lt ctx
  by_cases hart : plicCtxHartid other = plicCtxHartid ctx
  · simp only [ctxLine, riscvInterrupt, hart, update_self, getLsbD_or,
      getLsbD_mask _ _ (plicCtxPrio_lt other), Nat.mod_eq_of_lt small, ctx_eq_iff ctx other,
      true_and]
    exact Bool.or_comm _ _
  · simp [ctxLine, riscvInterrupt, ctx_eq_iff ctx other, hart]

theorem ctxLine_riscvInterruptClear (other : Nat) :
    ctxLine (riscvInterruptClear s ctx) other = (decide (other ≠ ctx) && ctxLine s other) := by
  have small := plicCtxPrio_lt ctx
  by_cases hart : plicCtxHartid other = plicCtxHartid ctx
  · simp only [ctxLine, riscvInterruptClear, hart, update_self, getLsbD_and,
      getLsbD_not, getLsbD_mask _ _ (plicCtxPrio_lt other), Nat.mod_eq_of_lt small,
      plicCtxPrio_lt other, decide_true, Bool.true_and, ne_eq, ctx_eq_iff ctx other, true_and,
      decide_not]
    exact Bool.and_comm _ _
  · simp [ctxLine, riscvInterruptClear, ctx_eq_iff ctx other, hart]

theorem riscvInterrupt_regs : SameRegs s (riscvInterrupt s ctx) :=
  ⟨rfl, rfl, rfl, rfl, rfl, rfl⟩

theorem riscvInterruptClear_regs :
    SameRegs s (riscvInterruptClear s ctx) :=
  ⟨rfl, rfl, rfl, rfl, rfl, rfl⟩

end

structure Raises (s t : PlicDev) : Prop where
  regs : SameRegs s t
  lines : ∀ ctx, ctxLine s ctx = true → ctxLine t ctx = true

theorem Raises.refl (s : PlicDev) : Raises s s := ⟨.refl s, fun _ line => line⟩

theorem Raises.trans {s t u : PlicDev} (first : Raises s t) (second : Raises t u) : Raises s u :=
  ⟨first.regs.trans second.regs, fun ctx line => second.lines ctx (first.lines ctx line)⟩

theorem riscvInterrupt_raises (s : PlicDev) (ctx : Nat) : Raises s (riscvInterrupt s ctx) where
  regs := riscvInterrupt_regs s ctx
  lines := by
    intro other line
    rw [ctxLine_riscvInterrupt, line, Bool.or_true]

theorem plicNotifyCtxIrq_fst (s : PlicDev) {ctx : Nat} (irq : Nat) (inside : ctx < plicCtxCount s) :
    (plicNotifyCtxIrq s ctx irq).1 = true ↔ Eligible s ctx irq := by
  simp only [plicNotifyCtxIrq, Eligible, inside, true_and]
  split_ifs with disabled low
  · simp_all
  · simp_all
  · simp_all

theorem plicNotifyCtxIrq_raises (s : PlicDev) (ctx irq : Nat) :
    Raises s (plicNotifyCtxIrq s ctx irq).2 := by
  unfold plicNotifyCtxIrq
  split_ifs
  · exact .refl s
  · exact .refl s
  · exact riscvInterrupt_raises s ctx

variable {s : PlicDev} {ctx irq : Nat}

theorem plicNotifyCtxIrq_line (takes : Eligible s ctx irq) :
    ctxLine (plicNotifyCtxIrq s ctx irq).2 ctx = true := by
  have high : ¬ s.prio irq ≤ s.threshold ctx := BitVec.not_le.mpr takes.2.2
  simp [plicNotifyCtxIrq, takes.2.1, high, ctxLine_riscvInterrupt]

theorem plicNotifyCtxIrq_refused (inside : ctx < plicCtxCount s)
    (refuses : ¬ Eligible s ctx irq) : (plicNotifyCtxIrq s ctx irq).2 = s := by
  rw [← plicNotifyCtxIrq_fst s irq inside] at refuses
  revert refuses
  unfold plicNotifyCtxIrq
  split_ifs <;> simp

theorem plicNotifyIrq_raises (s : PlicDev) (irq : Nat) : Raises s (plicNotifyIrq s irq) := by
  unfold plicNotifyIrq
  split
  · exact plicNotifyCtxIrq_raises s _ irq
  · exact .refl s

theorem plicNotifyIrq_delivered (s : PlicDev) (irq : Nat) : Delivered (plicNotifyIrq s irq) irq := by
  rintro ⟨ctx, takes⟩
  have takes := ((plicNotifyIrq_raises s irq).regs.eligible ctx irq).mp takes
  unfold plicNotifyIrq
  split
  next found search =>
    have inside : found < plicCtxCount s :=
      mem_range.mp (mem_of_find?_eq_some search)
    have accepts := (plicNotifyCtxIrq_fst s irq inside).mp
      (by simpa using find?_some search)
    exact ⟨found, ((plicNotifyCtxIrq_raises s found irq).regs.eligible found irq).mpr accepts,
      plicNotifyCtxIrq_line accepts⟩
  next search =>
    have rejects := find?_eq_none.mp search ctx (mem_range.mpr takes.1)
    exact absurd ((plicNotifyCtxIrq_fst s irq takes.1).mpr takes) rejects

theorem notifyAll_spec (s : PlicDev) (base : Nat) (found : List Nat) :
    Raises s (found.foldl (fun s bit => plicNotifyIrq s (base + bit)) s) ∧
      ∀ bit ∈ found,
        Delivered (found.foldl (fun s bit => plicNotifyIrq s (base + bit)) s) (base + bit) := by
  induction found generalizing s with
  | nil => exact ⟨.refl s, nofun⟩
  | cons bit rest ih =>
    obtain ⟨raises, delivered⟩ := ih (plicNotifyIrq s (base + bit))
    refine ⟨(plicNotifyIrq_raises s _).trans raises, ?_⟩
    intro other member
    rcases mem_cons.mp member with rfl | later
    · exact raises.regs.delivered raises.lines (plicNotifyIrq_delivered s _)
    · exact delivered other later

section
variable (s : PlicDev) (ctx : Nat)

theorem mem_plicCtxIrqs (irq : Nat) :
    irq ∈ plicCtxIrqs s ctx ↔
      irq < plicSrcLimit ∧ plicIrqPending s irq = true ∧ plicIrqEnabled s ctx irq = true := by
  simp only [plicCtxIrqs, mem_flatMap, mem_range, mem_word_bits, getLsbD_and, Bool.and_eq_true, plicIrqPending,
    plicIrqEnabled, test, plicSrcRegs, plicSrcLimit]
  constructor
  · rintro ⟨reg, small, rfl, both⟩
    exact ⟨by omega, both⟩
  · rintro ⟨small, both⟩
    exact ⟨irq / 32, by omega, rfl, both⟩

theorem plicScan_signals_from (acc : PlicScan) (irqs : List Nat) :
    (irqs.foldl (plicScanIrq s ctx) acc).signals =
      acc.signals + irqs.countP fun irq => decide (s.threshold ctx < s.prio irq) := by
  induction irqs generalizing acc with
  | nil => rfl
  | cons irq rest ih =>
    rw [foldl_cons, ih, countP_cons]
    by_cases above : s.threshold ctx < s.prio irq
    · simp only [plicScanIrq, above, if_true, decide_true]
      omega
    · simp [plicScanIrq, above]

theorem plicScan_signals :
    (plicScan s ctx).signals =
      (plicCtxIrqs s ctx).countP fun irq => decide (s.threshold ctx < s.prio irq) := by
  rw [plicScan, plicScan_signals_from]
  exact Nat.zero_add _

/-- The running maximum: either nothing has a priority above it, or it is a visited
source of that priority. -/
theorem plicScan_max_from (acc : PlicScan) (irqs : List Nat) :
    let scan := irqs.foldl (plicScanIrq s ctx) acc
    ((scan.maxIrq = acc.maxIrq ∧ scan.maxPrio = acc.maxPrio) ∨
        (scan.maxIrq ∈ irqs ∧ scan.maxPrio = s.prio scan.maxIrq)) ∧
      acc.maxPrio ≤ scan.maxPrio ∧ ∀ irq ∈ irqs, s.prio irq ≤ scan.maxPrio := by
  induction irqs generalizing acc with
  | nil =>
    exact ⟨.inl ⟨rfl, rfl⟩, BitVec.le_refl _, nofun⟩
  | cons irq rest ih =>
    obtain ⟨source, above, all⟩ := ih (plicScanIrq s ctx acc irq)
    by_cases more : acc.maxPrio < s.prio irq
    · have here : (plicScanIrq s ctx acc irq).maxPrio = s.prio irq := by simp [plicScanIrq, more]
      have this : (plicScanIrq s ctx acc irq).maxIrq = irq := by simp [plicScanIrq, more]
      rw [here] at source above
      rw [this] at source
      refine ⟨.inr ?_, BitVec.le_trans (BitVec.le_of_lt more) above, ?_⟩
      · rcases source with ⟨same, prio⟩ | ⟨member, prio⟩
        · exact ⟨mem_cons.mpr (.inl same), by rw [foldl_cons, same, prio]⟩
        · exact ⟨mem_cons_of_mem irq member, prio⟩
      · intro other member
        rcases mem_cons.mp member with rfl | later
        · exact above
        · exact all other later
    · have here : (plicScanIrq s ctx acc irq).maxPrio = acc.maxPrio := by simp [plicScanIrq, more]
      have this : (plicScanIrq s ctx acc irq).maxIrq = acc.maxIrq := by simp [plicScanIrq, more]
      rw [here] at source above
      rw [this] at source
      refine ⟨?_, above, ?_⟩
      · exact source.imp id fun found => ⟨mem_cons_of_mem irq found.1, found.2⟩
      · intro other member
        rcases mem_cons.mp member with rfl | later
        · exact BitVec.le_trans (BitVec.not_lt.mp more) above
        · exact all other later

theorem plicScan_max :
    (((plicScan s ctx).maxIrq = 0 ∧ (plicScan s ctx).maxPrio = 0) ∨
        ((plicScan s ctx).maxIrq ∈ plicCtxIrqs s ctx ∧
          (plicScan s ctx).maxPrio = s.prio (plicScan s ctx).maxIrq)) ∧
      ∀ irq ∈ plicCtxIrqs s ctx, s.prio irq ≤ (plicScan s ctx).maxPrio :=
  ⟨(plicScan_max_from s ctx ⟨0, 0, 0⟩ (plicCtxIrqs s ctx)).1,
    (plicScan_max_from s ctx ⟨0, 0, 0⟩ (plicCtxIrqs s ctx)).2.2⟩

theorem plicScan_maxIrq_pending (found : (plicScan s ctx).maxIrq ≠ 0) :
    plicIrqPending s (plicScan s ctx).maxIrq = true := by
  rcases (plicScan_max s ctx).1 with ⟨zero, -⟩ | ⟨member, -⟩
  · exact absurd zero found
  · exact ((mem_plicCtxIrqs s ctx _).mp member).2.1

end

/-- Some pending source of the context is above its threshold. -/
def Signalling (s : PlicDev) (ctx : Nat) : Prop :=
  ∃ irq ∈ plicCtxIrqs s ctx, s.threshold ctx < s.prio irq

theorem Eligible.signalling (takes : Eligible s ctx irq)
    (small : irq < plicSrcLimit) (pending : plicIrqPending s irq = true) : Signalling s ctx :=
  ⟨irq, (mem_plicCtxIrqs s ctx irq).mpr ⟨small, pending, takes.2.1⟩, takes.2.2⟩

theorem SameRegs.signalling {s t : PlicDev} (same : SameRegs s t) (ctx : Nat) :
    Signalling t ctx ↔ Signalling s ctx := by
  simp [Signalling, same.ctxIrqs, same.threshold, same.prio]

theorem plicUpdateCtx_regs (s : PlicDev) (ctx : Nat) (claim : Bool) :
    SameRegs s (plicUpdateCtx s ctx claim).2 := by
  simp only [plicUpdateCtx]
  split_ifs
  · exact riscvInterruptClear_regs s ctx
  · exact (riscvInterruptClear_regs s ctx).trans (riscvInterrupt_regs _ ctx)
  · exact riscvInterruptClear_regs s ctx
  · exact (riscvInterruptClear_regs s ctx).trans (riscvInterrupt_regs _ ctx)

theorem plicUpdateCtx_other (s : PlicDev) {ctx other : Nat} (claim : Bool) (differs : other ≠ ctx) :
    ctxLine (plicUpdateCtx s ctx claim).2 other = ctxLine s other := by
  simp only [plicUpdateCtx]
  split_ifs <;> simp [ctxLine_riscvInterrupt, ctxLine_riscvInterruptClear, differs]

theorem plicUpdateCtx_line {ctx : Nat} (signals : Signalling s ctx) :
    ctxLine (plicUpdateCtx s ctx false).2 ctx = true := by
  obtain ⟨irq, member, above⟩ := signals
  have positive : 0 < (plicScan s ctx).signals := by
    rw [plicScan_signals]
    exact countP_pos_iff.mpr ⟨irq, member, decide_eq_true above⟩
  simp [plicUpdateCtx, Nat.ne_of_gt positive, ctxLine_riscvInterrupt]

/-- A claim does not count the source it takes; any other signalling source keeps the
line asserted. -/
theorem plicUpdateCtx_claim_line (member : irq ∈ plicCtxIrqs s ctx)
    (above : s.threshold ctx < s.prio irq) (remains : irq ≠ (plicScan s ctx).maxIrq) :
    ctxLine (plicUpdateCtx s ctx true).2 ctx = true := by
  obtain ⟨source, all⟩ := plicScan_max s ctx
  have highest : s.threshold ctx < (plicScan s ctx).maxPrio :=
    lt_def.mpr (Nat.lt_of_lt_of_le (lt_def.mp above) (le_def.mp (all irq member)))
  rcases source with ⟨-, zero⟩ | ⟨taken, prio⟩
  · rw [zero] at highest
    exact absurd highest not_lt_zero
  · have other : irq ∈ (plicCtxIrqs s ctx).erase (plicScan s ctx).maxIrq :=
      (mem_erase_of_ne remains).mpr member
    have two : 1 < (plicScan s ctx).signals := by
      rw [plicScan_signals, (perm_cons_erase taken).countP_eq, countP_cons,
        if_pos (decide_eq_true (prio ▸ highest))]
      exact Nat.succ_lt_succ (countP_pos_iff.mpr ⟨irq, other, decide_eq_true above⟩)
    have left : (plicScan s ctx).signals - 1 ≠ 0 := by omega
    simp [plicUpdateCtx, highest, left, ctxLine_riscvInterrupt]

/-- Updating a list of contexts asserts every signalling one among them and keeps the
asserted lines of the signalling others. -/
theorem updateAll_spec (s : PlicDev) (ctxs : List Nat) :
    SameRegs s (ctxs.foldl (fun s ctx => (plicUpdateCtx s ctx false).2) s) ∧
      ∀ ctx, Signalling s ctx → (ctx ∈ ctxs ∨ ctxLine s ctx = true) →
        ctxLine (ctxs.foldl (fun s ctx => (plicUpdateCtx s ctx false).2) s) ctx = true := by
  induction ctxs generalizing s with
  | nil => exact ⟨.refl s, fun ctx _ covered => covered.resolve_left not_mem_nil⟩
  | cons first rest ih =>
    have regs := plicUpdateCtx_regs s first false
    obtain ⟨same, lines⟩ := ih (plicUpdateCtx s first false).2
    refine ⟨regs.trans same, ?_⟩
    intro ctx signals covered
    refine lines ctx ((regs.signalling ctx).mpr signals) ?_
    by_cases here : ctx = first
    · subst here
      exact .inr (plicUpdateCtx_line signals)
    · rw [plicUpdateCtx_other s false here]
      exact covered.imp_left fun member => (mem_cons.mp member).resolve_left here

theorem plicFullUpdate_noLostInterrupt (s : PlicDev) : NoLostInterrupt (plicFullUpdate s) := by
  obtain ⟨same, lines⟩ := updateAll_spec s (range (plicCtxCount s))
  rintro irq small pending ⟨ctx, takes⟩
  refine ⟨ctx, takes, lines ctx ?_ (.inl ?_)⟩
  · exact (same.signalling ctx).mp (takes.signalling small pending)
  · exact mem_range.mpr ((same.eligible ctx irq).mp takes).1

/-- A step keeps the property if each source pending after it is either delivered or was
pending before with the same eligible contexts, and no line is dropped. -/
theorem NoLostInterrupt.step {s t : PlicDev} (holds : NoLostInterrupt s)
    (lines : ∀ ctx, ctxLine s ctx = true → ctxLine t ctx = true)
    (sources : ∀ irq < plicSrcLimit, plicIrqPending t irq = true → Delivered t irq ∨
      plicIrqPending s irq = true ∧ ∀ ctx, Eligible t ctx irq ↔ Eligible s ctx irq) :
    NoLostInterrupt t := by
  intro irq small pending
  rcases sources irq small pending with delivered | ⟨before, same⟩
  · exact delivered
  · rintro ⟨ctx, takes⟩
    obtain ⟨taker, accepts, line⟩ := holds irq small before ⟨ctx, (same ctx).mp takes⟩
    exact ⟨taker, (same taker).mpr accepts, lines taker line⟩

theorem plicSetIrqPrio_keeps (irq : Nat) (prio : BitVec 32)
    (holds : NoLostInterrupt s) : NoLostInterrupt (plicSetIrqPrio s irq prio) := by
  have others : ∀ other ≠ irq, ∀ ctx,
      Eligible { s with prio := update s.prio irq prio } ctx other ↔
        Eligible s ctx other := by
    intro other differs ctx
    simp [Eligible, plicCtxCount, plicIrqEnabled, update_of_ne differs]
  simp only [plicSetIrqPrio]
  split_ifs with valid lowered pending raised
  · exact plicFullUpdate_noLostInterrupt _
  · refine holds.step (fun _ line => line) fun other _ pends => .inr ⟨pends, others other ?_⟩
    rintro rfl
    exact pending pends
  · have raises := plicNotifyIrq_raises { s with prio := update s.prio irq prio } irq
    refine holds.step raises.lines fun other _ pends => ?_
    by_cases same : other = irq
    · exact .inl (same ▸ plicNotifyIrq_delivered _ _)
    · exact .inr ⟨(raises.regs.irqPending other).symm.trans pends,
        fun ctx => (raises.regs.eligible ctx other).trans (others other same ctx)⟩
  · refine holds.step (fun _ line => line) fun other _ pends => .inr ⟨pends, ?_⟩
    by_cases same : other = irq
    · subst same
      have quiet : ¬ s.prio other < prio := fun higher => raised ⟨higher, pends⟩
      have equal : prio = s.prio other :=
        BitVec.le_antisymm (BitVec.not_lt.mp quiet) (BitVec.not_lt.mp lowered)
      intro ctx
      simp [equal, Function.update_eq_self]
    · exact others other same
  · exact holds

theorem plicSetIrq_keeps (irq : Nat) (lvl : Bool) (holds : NoLostInterrupt s) :
    NoLostInterrupt (plicSetIrq s irq lvl) := by
  have rearmed : ∀ other, test (set s.pending irq) other = true →
      other = irq ∨ plicIrqPending s other = true := by
    intro other pends
    simpa [test_set, plicIrqPending] using pends
  simp only [plicSetIrq]
  split_ifs with valid high already pending
  · exact holds
  · refine holds.step (fun _ line => line) fun other _ pends => .inr ⟨?_, fun _ => .rfl⟩
    rcases rearmed other pends with rfl | before
    · exact pending
    · exact before
  · have raises := plicNotifyIrq_raises
      { s with raised := set s.raised irq, pending := set s.pending irq } irq
    refine holds.step raises.lines fun other _ pends => ?_
    rcases rearmed other ((raises.regs.irqPending other).symm.trans pends) with rfl | before
    · exact .inl (plicNotifyIrq_delivered _ _)
    · exact .inr ⟨before, fun ctx => raises.regs.eligible ctx other⟩
  · exact holds.step (fun _ line => line) fun _ _ pends => .inr ⟨pends, fun _ => .rfl⟩
  · exact holds

theorem plicUpdateCtx_claim_keeps (ctx : Nat) (holds : NoLostInterrupt s) {irq : Nat}
    (small : irq < plicSrcLimit) (pending : plicIrqPending s irq = true)
    (remains : irq ≠ (plicScan s ctx).maxIrq) : Delivered (plicUpdateCtx s ctx true).2 irq := by
  have regs := plicUpdateCtx_regs s ctx true
  rintro ⟨asks, takes⟩
  obtain ⟨taker, accepts, line⟩ := holds irq small pending ⟨asks, (regs.eligible asks irq).mp takes⟩
  refine ⟨taker, (regs.eligible taker irq).mpr accepts, ?_⟩
  by_cases same : taker = ctx
  · subst same
    exact plicUpdateCtx_claim_line
      ((mem_plicCtxIrqs s taker irq).mpr ⟨small, pending, accepts.2.1⟩) accepts.2.2 remains
  · rw [plicUpdateCtx_other s true same]
    exact line

/-- Identity 0 is reserved: it never becomes pending or raised. -/
def SourceZeroIdle (s : PlicDev) : Prop :=
  plicIrqPending s 0 = false ∧ test s.raised 0 = false

theorem plicClaimIrq_keeps (ctx : Nat) (idle : SourceZeroIdle s)
    (holds : NoLostInterrupt s) : NoLostInterrupt (plicClaimIrq s ctx).2 := by
  have regs := plicUpdateCtx_regs s ctx true
  have found : (plicUpdateCtx s ctx true).1 = (plicScan s ctx).maxIrq := rfl
  simp only [plicClaimIrq]
  split_ifs with valid claimed
  · intro irq small pends
    have kept : irq ≠ (plicScan s ctx).maxIrq ∧ plicIrqPending s irq = true := by
      simpa [plicIrqPending, test_clear, found, regs.pending] using pends
    exact plicUpdateCtx_claim_keeps ctx holds small kept.2 kept.1
  · intro irq small pends
    have pending := (regs.irqPending irq).symm.trans pends
    refine plicUpdateCtx_claim_keeps ctx holds small pending ?_
    rw [← found, not_not.mp claimed]
    rintro rfl
    exact nomatch idle.1.symm.trans pending
  · exact holds

/-- Clearing enable bits none of which is pending skips every update, so a pending
source the same write enables must be covered already: by the context's own asserted
line or by another eligible context. -/
def EnableOk (s : PlicDev) (ctx reg : Nat) (enable : BitVec 32) : Prop :=
  ctx < plicCtxCount s → reg < plicSrcRegs → s.enable ctx reg &&& ~~~ enable ≠ 0 →
    (s.enable ctx reg &&& ~~~ enable) &&& s.pending reg = 0 →
    ∀ irq < plicSrcLimit, irq / 32 = reg → plicIrqPending s irq = true →
      plicIrqEnabled s ctx irq = false → enable.getLsbD (irq % 32) = true →
      s.threshold ctx < s.prio irq → ctxLine s ctx = true ∨ ∃ other, Eligible s other irq

/-- A threshold write updates its own context only, so a pending source it masks there
must already assert another eligible context if there is one. -/
def ThresholdOk (s : PlicDev) (ctx : Nat) (threshold : BitVec 32) : Prop :=
  ∀ irq < plicSrcLimit, plicIrqPending s irq = true → Eligible s ctx irq →
    s.prio irq ≤ threshold → (∃ other ≠ ctx, Eligible s other irq) →
    ∃ other ≠ ctx, Eligible s other irq ∧ ctxLine s other = true

/-- A completion that rearms a source notifies its own context only. -/
def CompleteOk (s : PlicDev) (ctx irq : Nat) : Prop :=
  ctx < plicCtxCount s → irq < plicSrcLimit → test s.raised irq = true →
    plicIrqPending s irq = false → ¬ Eligible s ctx irq → Delivered s irq

/-- The register state after an enable write, before any line is touched. -/
def enableWritten (s : PlicDev) (ctx reg : Nat) (enable : BitVec 32) : PlicDev :=
  { s with
    enable := update s.enable ctx (update (s.enable ctx) reg enable) }

section
variable (s : PlicDev) (ctx reg : Nat) (enable : BitVec 32) (other irq : Nat)

theorem enabled_enableWritten :
    plicIrqEnabled (enableWritten s ctx reg enable) other irq =
      if other = ctx ∧ irq / 32 = reg then enable.getLsbD (irq % 32)
      else plicIrqEnabled s other irq := by
  by_cases here : other = ctx
  · subst here
    by_cases word : irq / 32 = reg <;> simp [plicIrqEnabled, enableWritten, test, word]
  · simp [plicIrqEnabled, enableWritten, here]

/-- An enable write changes a source's eligibility only at its context and register,
where the written bit decides. -/
theorem eligible_enableWritten
    (agree : other = ctx → irq / 32 = reg → enable.getLsbD (irq % 32) = plicIrqEnabled s ctx irq) :
    Eligible (enableWritten s ctx reg enable) other irq ↔ Eligible s other irq := by
  have enabled : plicIrqEnabled (enableWritten s ctx reg enable) other irq =
      plicIrqEnabled s other irq := by
    rw [enabled_enableWritten]
    split_ifs with here
    · rw [agree here.1 here.2, here.1]
    · rfl
  simp only [Eligible, enabled]
  rfl

end

theorem enableWritten_quiet_iff {ctx reg : Nat} {enable : BitVec 32}
    (valid : ctx < plicCtxCount s)
    (unpending : (s.enable ctx reg &&& ~~~ enable) &&& s.pending reg = 0)
    (holds : NoLostInterrupt s) :
    NoLostInterrupt (enableWritten s ctx reg enable) ↔
      ∀ irq < plicSrcLimit, irq / 32 = reg → plicIrqPending s irq = true →
        plicIrqEnabled s ctx irq = false → enable.getLsbD (irq % 32) = true →
        s.threshold ctx < s.prio irq → ctxLine s ctx = true ∨ ∃ other, Eligible s other irq := by
  have survives : ∀ irq, irq / 32 = reg → plicIrqPending s irq = true →
      plicIrqEnabled s ctx irq = true → enable.getLsbD (irq % 32) = true := by
    intro irq word pending enabled
    by_contra dropped
    refine absurd unpending ((and_ne_zero_iff _ _).mpr ⟨irq % 32, ?_, ?_⟩)
    · have bound : irq % 32 < 32 := Nat.mod_lt irq (by decide)
      have removed : enable.getLsbD (irq % 32) = false := by simpa using dropped
      have held : (s.enable ctx reg).getLsbD (irq % 32) = true := word ▸ enabled
      simp only [getLsbD_and, getLsbD_not, bound, removed, held, decide_true,
        Bool.not_false, Bool.and_self]
    · simpa [plicIrqPending, test, word] using pending
  have stays : ∀ irq, plicIrqPending s irq = true → ∀ other, Eligible s other irq →
      Eligible (enableWritten s ctx reg enable) other irq := by
    intro irq pending other takes
    refine (eligible_enableWritten s ctx reg enable other irq ?_).mpr takes
    rintro rfl word
    rw [survives irq word pending takes.2.1, takes.2.1]
  constructor
  · intro after irq small word pending disabled written above
    have asks : Eligible (enableWritten s ctx reg enable) ctx irq :=
      ⟨valid, by rw [enabled_enableWritten, if_pos ⟨rfl, word⟩, written], above⟩
    obtain ⟨taker, takes, line⟩ := after irq small pending ⟨ctx, asks⟩
    by_cases here : taker = ctx
    · exact .inl (here ▸ line)
    · exact .inr ⟨taker, (eligible_enableWritten s ctx reg enable taker irq
        fun same => absurd same here).mp takes⟩
  · rintro covered irq small pending ⟨asks, takes⟩
    by_cases before : ∃ other, Eligible s other irq
    · obtain ⟨taker, accepts, line⟩ := holds irq small pending before
      exact ⟨taker, stays irq pending taker accepts, line⟩
    · have fresh : asks = ctx ∧ irq / 32 = reg := by
        by_contra elsewhere
        refine before ⟨asks, (eligible_enableWritten s ctx reg enable asks irq ?_).mp takes⟩
        exact fun here word => absurd ⟨here, word⟩ elsewhere
      obtain ⟨rfl, word⟩ := fresh
      have written : enable.getLsbD (irq % 32) = true := by
        simpa only [enabled_enableWritten, true_and, word, if_true] using takes.2.1
      have disabled : plicIrqEnabled s asks irq = false := by
        by_contra enabled
        exact before ⟨asks, takes.1, by simpa using enabled, takes.2.2⟩
      have line := (covered irq small word pending disabled written takes.2.2).resolve_right before
      exact ⟨asks, takes, line⟩

theorem enableWritten_added {ctx reg : Nat} {enable : BitVec 32}
    (holds : NoLostInterrupt s) (grows : s.enable ctx reg &&& ~~~ enable = 0) :
    NoLostInterrupt (plicUpdateCtxIrqReg (enableWritten s ctx reg enable) ctx reg) := by
  have spec := notifyAll_spec (enableWritten s ctx reg enable) (reg * 32)
    (bits ((enableWritten s ctx reg enable).pending reg &&&
      (enableWritten s ctx reg enable).enable ctx reg))
  obtain ⟨raises, delivered⟩ := spec
  have written : (enableWritten s ctx reg enable).enable ctx reg = enable := by
    simp [enableWritten]
  refine holds.step raises.lines fun irq _ pends => ?_
  have pending : plicIrqPending s irq = true := (raises.regs.irqPending irq).symm.trans pends
  by_cases touched : irq / 32 = reg ∧ enable.getLsbD (irq % 32) = true
  · obtain ⟨word, bit⟩ := touched
    have found := delivered (irq % 32) (mem_bits.mpr (by
      rw [written, getLsbD_and, bit, Bool.and_true]
      exact word ▸ pending))
    have index : reg * 32 + irq % 32 = irq := by omega
    exact .inl (index ▸ found)
  · refine .inr ⟨pending, fun other => (raises.regs.eligible other irq).trans ?_⟩
    refine eligible_enableWritten s ctx reg enable other irq fun _ word => ?_
    have clear : enable.getLsbD (irq % 32) = false := by simpa [word] using touched
    have before : plicIrqEnabled s ctx irq = false := by
      by_contra enabled
      have held : (s.enable ctx reg).getLsbD (irq % 32) = true := by
        simpa [plicIrqEnabled, test, word] using enabled
      rw [(and_not_eq_zero_iff _ _).mp grows _ held] at clear
      exact absurd clear.symm Bool.false_ne_true
    rw [clear, before]

theorem plicSetEnableBits_iff (ctx reg : Nat) (enable : BitVec 32)
    (holds : NoLostInterrupt s) :
    NoLostInterrupt (plicSetEnableBits s ctx reg enable) ↔ EnableOk s ctx reg enable := by
  have unfolded : plicSetEnableBits s ctx reg enable =
      if ctx < plicCtxCount s ∧ reg < plicSrcRegs then
        if s.enable ctx reg &&& ~~~ enable ≠ 0 then
          if (s.enable ctx reg &&& ~~~ enable) &&& s.pending reg ≠ 0 then
            plicFullUpdate (enableWritten s ctx reg enable)
          else enableWritten s ctx reg enable
        else if enable &&& ~~~ s.enable ctx reg ≠ 0 then
          plicUpdateCtxIrqReg (enableWritten s ctx reg enable) ctx reg
        else enableWritten s ctx reg enable
      else s := rfl
  rw [unfolded]
  split_ifs with valid dropped pending added
  · exact iff_of_true (plicFullUpdate_noLostInterrupt _) fun _ _ _ none => absurd none pending
  · rw [enableWritten_quiet_iff valid.1 (not_not.mp pending) holds]
    simp only [EnableOk, valid.1, valid.2, dropped, not_not.mp pending, ne_eq, not_false_eq_true,
      true_imp_iff]
  · refine iff_of_true (enableWritten_added holds (not_not.mp dropped)) ?_
    exact fun _ _ some => absurd some dropped
  · refine iff_of_true (holds.step (fun _ line => line) fun irq _ pends => .inr ⟨pends, ?_⟩) ?_
    · have same : enable = s.enable ctx reg :=
        eq_of_and_not_eq_zero (not_not.mp added) (not_not.mp dropped)
      intro other
      refine eligible_enableWritten s ctx reg enable other irq fun _ word => ?_
      rw [same, plicIrqEnabled, test, word]
    · exact fun _ _ some => absurd some dropped
  · exact iff_of_true holds fun inside small => absurd ⟨inside, small⟩ valid

def thresholdWritten (s : PlicDev) (ctx : Nat) (threshold : BitVec 32) : PlicDev :=
  { s with threshold := update s.threshold ctx threshold }

theorem eligible_thresholdWritten (s : PlicDev) {ctx other : Nat} (threshold : BitVec 32) (irq : Nat)
    (differs : other ≠ ctx) :
    Eligible (thresholdWritten s ctx threshold) other irq ↔ Eligible s other irq := by
  simp [Eligible, plicCtxCount, plicIrqEnabled, thresholdWritten, update_of_ne differs]

theorem eligible_thresholdWritten_self (s : PlicDev) (ctx : Nat) (threshold : BitVec 32)
    (irq : Nat) :
    Eligible (thresholdWritten s ctx threshold) ctx irq ↔
      ctx < plicCtxCount s ∧ plicIrqEnabled s ctx irq = true ∧ threshold < s.prio irq := by
  simp [Eligible, plicCtxCount, plicIrqEnabled, thresholdWritten]

theorem plicSetCtxThreshold_iff (ctx : Nat) (threshold : BitVec 32)
    (holds : NoLostInterrupt s) :
    NoLostInterrupt (plicSetCtxThreshold s ctx threshold) ↔ ThresholdOk s ctx threshold := by
  have unfolded : plicSetCtxThreshold s ctx threshold =
      if ctx < plicCtxCount s then
        if s.threshold ctx ≠ threshold then
          (plicUpdateCtx (thresholdWritten s ctx threshold) ctx false).2
        else thresholdWritten s ctx threshold
      else s := rfl
  rw [unfolded]
  split_ifs with valid changed
  · have regs := plicUpdateCtx_regs (thresholdWritten s ctx threshold) ctx false
    constructor
    · rintro after irq small pending takes masked ⟨other, differs, accepts⟩
      have asks := (regs.eligible other irq).mpr
        ((eligible_thresholdWritten s threshold irq differs).mpr accepts)
      obtain ⟨taker, gets, line⟩ := after irq small ((regs.irqPending irq).trans pending)
        ⟨other, asks⟩
      have gets := (regs.eligible taker irq).mp gets
      have elsewhere : taker ≠ ctx := by
        rintro rfl
        have above := ((eligible_thresholdWritten_self s taker threshold irq).mp gets).2.2
        exact absurd above (BitVec.not_lt.mpr masked)
      rw [plicUpdateCtx_other _ false elsewhere] at line
      exact ⟨taker, elsewhere, (eligible_thresholdWritten s threshold irq elsewhere).mp gets, line⟩
    · intro passed irq small pends
      have pending : plicIrqPending s irq = true := (regs.irqPending irq).symm.trans pends
      rintro ⟨asks, takes⟩
      have takes := (regs.eligible asks irq).mp takes
      by_cases own : Eligible (thresholdWritten s ctx threshold) ctx irq
      · exact ⟨ctx, (regs.eligible ctx irq).mpr own,
          plicUpdateCtx_line (own.signalling small pending)⟩
      · have elsewhere : asks ≠ ctx := fun same => own (same ▸ takes)
        have accepts := (eligible_thresholdWritten s threshold irq elsewhere).mp takes
        obtain ⟨taker, differs, gets, line⟩ :
            ∃ taker ≠ ctx, Eligible s taker irq ∧ ctxLine s taker = true := by
          obtain ⟨taker, gets, line⟩ := holds irq small pending ⟨asks, accepts⟩
          by_cases same : taker = ctx
          · subst same
            refine passed irq small pending gets ?_ ⟨asks, elsewhere, accepts⟩
            refine BitVec.not_lt.mp fun above => own ?_
            exact (eligible_thresholdWritten_self s taker threshold irq).mpr
              ⟨gets.1, gets.2.1, above⟩
          · exact ⟨taker, same, gets, line⟩
        refine ⟨taker, (regs.eligible taker irq).mpr
          ((eligible_thresholdWritten s threshold irq differs).mpr gets), ?_⟩
        rw [plicUpdateCtx_other _ false differs]
        exact line
  · have same : thresholdWritten s ctx threshold = s := by
      rw [thresholdWritten, ← not_not.mp changed, Function.update_eq_self]
    rw [same]
    refine iff_of_true holds fun irq _ _ takes masked => ?_
    exact absurd takes.2.2 (BitVec.not_lt.mpr (not_not.mp changed ▸ masked))
  · exact iff_of_true holds fun _ _ _ takes => absurd takes.1 valid

theorem plicCompleteIrq_iff (ctx irq : Nat) (holds : NoLostInterrupt s) :
    NoLostInterrupt (plicCompleteIrq s ctx irq) ↔ CompleteOk s ctx irq := by
  unfold plicCompleteIrq CompleteOk
  split_ifs with valid raised
  · have raises := plicNotifyCtxIrq_raises { s with pending := set s.pending irq } ctx irq
    have rearmed : ∀ other,
        plicIrqPending (plicNotifyCtxIrq { s with pending := set s.pending irq } ctx irq).2 other =
          (decide (other = irq) || plicIrqPending s other) := by
      intro other
      rw [raises.regs.irqPending]
      exact test_set s.pending irq other
    simp only [valid.1, valid.2, raised, true_imp_iff]
    constructor
    · intro after idle refuses
      have delivered := after irq valid.2 (by rw [rearmed, decide_eq_true rfl, Bool.true_or])
      have unchanged : (plicNotifyCtxIrq { s with pending := set s.pending irq } ctx irq).2 =
          { s with pending := set s.pending irq } := plicNotifyCtxIrq_refused valid.1 refuses
      rw [unchanged] at delivered
      exact delivered
    · intro covered
      refine holds.step raises.lines fun other small pends => ?_
      rw [rearmed, Bool.or_eq_true, decide_eq_true_eq] at pends
      by_cases before : plicIrqPending s other = true
      · exact .inr ⟨before, fun asks => raises.regs.eligible asks other⟩
      · obtain rfl := pends.resolve_right before
        by_cases own : Eligible s ctx other
        · exact .inl fun _ => ⟨ctx, (raises.regs.eligible ctx other).mpr own,
            plicNotifyCtxIrq_line own⟩
        · have delivered := covered (by simpa using before) own
          exact .inl (raises.regs.delivered raises.lines delivered)
  · exact iff_of_true holds fun _ _ up => absurd up raised
  · exact iff_of_true holds fun inside small => absurd ⟨inside, small⟩ valid

/-- The condition, on the state before an operation, under which it loses no interrupt. -/
def StepOk (s : PlicDev) : PlicOp → Prop
  | .mmioRead _ => True
  | .mmioWrite off val =>
    match plicReg off with
    | .threshold ctx => ThresholdOk s ctx val
    | .claim ctx => CompleteOk s ctx val.toNat
    | .unmapped => True
    | .enable ctx reg => EnableOk s ctx reg val
    | .source _ => True
  | .setIrq _ _ => True

theorem plicStep_noLostInterrupt_iff (s : PlicDev) (op : PlicOp) (idle : SourceZeroIdle s)
    (holds : NoLostInterrupt s) : NoLostInterrupt (plicStep s op) ↔ StepOk s op := by
  cases op with
  | mmioRead off =>
    refine iff_of_true ?_ trivial
    simp only [plicStep, plicMmioRead]
    cases plicReg off with
    | claim ctx => exact plicClaimIrq_keeps ctx idle holds
    | threshold | unmapped | enable | source => exact holds
  | mmioWrite off val =>
    simp only [plicStep, plicMmioWrite, StepOk]
    cases plicReg off with
    | threshold ctx => exact plicSetCtxThreshold_iff ctx val holds
    | claim ctx => exact plicCompleteIrq_iff ctx val.toNat holds
    | unmapped => exact iff_of_true holds trivial
    | enable ctx reg => exact plicSetEnableBits_iff ctx reg val holds
    | source off => exact iff_of_true (plicSetIrqPrio_keeps _ val holds) trivial
  | setIrq irq lvl => exact iff_of_true (plicSetIrq_keeps irq lvl holds) trivial

theorem plicFullUpdate_regs (s : PlicDev) : SameRegs s (plicFullUpdate s) :=
  (updateAll_spec s _).1

theorem plicUpdateCtxIrqReg_regs (s : PlicDev) (ctx reg : Nat) :
    SameRegs s (plicUpdateCtxIrqReg s ctx reg) :=
  (notifyAll_spec s _ _).1.regs

/-- Register writes that touch no source: what is pending and raised stays. -/
structure SameSources (s t : PlicDev) : Prop where
  pending : t.pending = s.pending
  raised : t.raised = s.raised

theorem SameRegs.sources {s t u : PlicDev} (same : SameRegs t u) (written : SameSources s t) : SameSources s u :=
  ⟨same.pending.trans written.pending, same.raised.trans written.raised⟩

theorem SameSources.sourceZeroIdle {s t : PlicDev} (same : SameSources s t) (idle : SourceZeroIdle s) :
    SourceZeroIdle t := by
  simpa [SourceZeroIdle, plicIrqPending, same.pending, same.raised] using idle

section Sources
variable (s : PlicDev)

theorem plicSetCtxThreshold_sources (ctx : Nat) (threshold : BitVec 32) :
    SameSources s (plicSetCtxThreshold s ctx threshold) := by
  simp only [plicSetCtxThreshold]
  split_ifs
  · exact (plicUpdateCtx_regs _ _ _).sources ⟨rfl, rfl⟩
  · exact ⟨rfl, rfl⟩
  · exact ⟨rfl, rfl⟩

theorem plicSetEnableBits_sources (ctx reg : Nat) (enable : BitVec 32) :
    SameSources s (plicSetEnableBits s ctx reg enable) := by
  simp only [plicSetEnableBits]
  split_ifs
  · exact (plicFullUpdate_regs _).sources ⟨rfl, rfl⟩
  · exact ⟨rfl, rfl⟩
  · exact (plicUpdateCtxIrqReg_regs _ _ _).sources ⟨rfl, rfl⟩
  · exact ⟨rfl, rfl⟩
  · exact ⟨rfl, rfl⟩

theorem plicSetIrqPrio_sources (irq : Nat) (prio : BitVec 32) : SameSources s (plicSetIrqPrio s irq prio) := by
  simp only [plicSetIrqPrio]
  split_ifs
  · exact (plicFullUpdate_regs _).sources ⟨rfl, rfl⟩
  · exact ⟨rfl, rfl⟩
  · exact (plicNotifyIrq_raises _ _).regs.sources ⟨rfl, rfl⟩
  · exact ⟨rfl, rfl⟩
  · exact ⟨rfl, rfl⟩

end Sources

theorem plicCompleteIrq_sourceZeroIdle (ctx irq : Nat) (idle : SourceZeroIdle s) :
    SourceZeroIdle (plicCompleteIrq s ctx irq) := by
  simp only [plicCompleteIrq]
  split_ifs with valid raised
  · refine ((plicNotifyCtxIrq_raises _ _ _).regs.sources ⟨rfl, rfl⟩).sourceZeroIdle ⟨?_, idle.2⟩
    have other : 0 ≠ irq := by
      rintro rfl
      exact nomatch idle.2.symm.trans raised
    rw [plicIrqPending, test_set, decide_eq_false other]
    exact idle.1
  · exact idle
  · exact idle

theorem plicClaimIrq_sourceZeroIdle (ctx : Nat) (idle : SourceZeroIdle s) :
    SourceZeroIdle (plicClaimIrq s ctx).2 := by
  have after := ((plicUpdateCtx_regs s ctx true).sources ⟨rfl, rfl⟩).sourceZeroIdle idle
  simp only [plicClaimIrq]
  split_ifs
  · refine ⟨?_, after.2⟩
    rw [plicIrqPending, test_clear, Bool.and_eq_false_iff]
    exact .inr after.1
  · exact after
  · exact idle

theorem plicSetIrq_sourceZeroIdle (irq : Nat) (lvl : Bool) (idle : SourceZeroIdle s) :
    SourceZeroIdle (plicSetIrq s irq lvl) := by
  have armed : ∀ {w : Words}, 0 < irq → test w 0 = false → test (set w irq) 0 = false := by
    intro w positive clear
    rw [test_set, decide_eq_false positive.ne, Bool.false_or, clear]
  simp only [plicSetIrq]
  split_ifs with valid high already pending
  · exact idle
  · exact ⟨armed valid.1 idle.1, armed valid.1 idle.2⟩
  · exact ((plicNotifyIrq_raises _ _).regs.sources ⟨rfl, rfl⟩).sourceZeroIdle
      ⟨armed valid.1 idle.1, armed valid.1 idle.2⟩
  · exact ⟨idle.1, by simp [test_clear, idle.2]⟩
  · exact idle

theorem plicStep_sourceZeroIdle (s : PlicDev) (op : PlicOp) (idle : SourceZeroIdle s) :
    SourceZeroIdle (plicStep s op) := by
  cases op with
  | mmioRead off =>
    simp only [plicStep, plicMmioRead]
    cases plicReg off with
    | claim ctx => exact plicClaimIrq_sourceZeroIdle ctx idle
    | threshold | unmapped | enable | source => exact idle
  | mmioWrite off val =>
    simp only [plicStep, plicMmioWrite]
    cases plicReg off with
    | threshold ctx => exact (plicSetCtxThreshold_sources s ctx val).sourceZeroIdle idle
    | claim ctx => exact plicCompleteIrq_sourceZeroIdle ctx val.toNat idle
    | unmapped => exact idle
    | enable ctx reg => exact (plicSetEnableBits_sources s ctx reg val).sourceZeroIdle idle
    | source off => exact (plicSetIrqPrio_sources s _ val).sourceZeroIdle idle
  | setIrq irq lvl => exact plicSetIrq_sourceZeroIdle irq lvl idle

theorem plicInit_noLostInterrupt (harts : Nat) : NoLostInterrupt (plicInit harts) := by
  rintro irq - pending
  simp [plicIrqPending, plicInit, test] at pending

theorem plicInit_sourceZeroIdle (harts : Nat) : SourceZeroIdle (plicInit harts) := by
  simp [SourceZeroIdle, plicIrqPending, plicInit, test]

/-- The runs from reset in which no state has a lost interrupt are exactly those whose
enable, threshold and completion writes leave every affected source covered. -/
theorem plic_delivery_iff (harts : Nat) (ops : List PlicOp) :
    (∀ s ∈ visited plicStep (plicInit harts) ops, NoLostInterrupt s) ↔
      AllSteps plicStep StepOk (plicInit harts) ops :=
  invariant_iff plicStep_sourceZeroIdle plicStep_noLostInterrupt_iff ops (plicInit_sourceZeroIdle harts)
    (plicInit_noLostInterrupt harts)

/-- Sources 1 and 2 get priority 1, context 0 enables source 2, source 1 is raised, and
one enable write then swaps source 2 for source 1. -/
def swapEnable : List PlicOp :=
  [.mmioWrite 0x4 1, .mmioWrite 0x8 1, .mmioWrite 0x2000 0b100, .setIrq 1 true,
    .mmioWrite 0x2000 0b010]

theorem plic_delivery_fails :
    ¬ ∀ s ∈ visited plicStep (plicInit 1) swapEnable, NoLostInterrupt s := by
  intro all
  obtain ⟨ctx, takes, line⟩ := all _ (final_mem_visited _ _) 1 (by decide) (by decide)
    ⟨0, by decide⟩
  have inside : ctx < 2 := takes.1
  interval_cases ctx
  · cases line
  · exact absurd takes (by decide)

end Rvvm.Plic
