import Rvvm.Devices.PlicDelivery

/-! Claims: which source a claim takes, and that claims of several contexts made at once never take one
source twice. -/
namespace Rvvm.Plic
open BitVec BitWords List Runs
open Function (update)

/-- A state of the controller, in which identity 0 is no source. -/
structure Controller where
  dev : PlicDev
  idle : SourceZeroIdle dev

def Controller.init (harts : Nat) : Controller := ⟨plicInit harts, plicInit_sourceZeroIdle harts⟩

def Controller.step (c : Controller) (op : PlicOp) : Controller :=
  ⟨plicStep c.dev op, plicStep_sourceZeroIdle c.dev op c.idle⟩

/-- A source of non-zero priority that is pending and enabled for the context. -/
structure Claimable (s : PlicDev) (ctx irq : Nat) : Prop where
  source : 0 < irq ∧ irq < plicSrcLimit
  pending : plicIrqPending s irq = true
  enabled : plicIrqEnabled s ctx irq = true
  prio : s.prio irq ≠ 0

/-- What a claim of the context should return. -/
def ClaimSpec (s : PlicDev) (ctx irq : Nat) : Prop :=
  (irq = 0 ∧ ∀ other, ¬ Claimable s ctx other) ∨
  (Claimable s ctx irq ∧ ∀ other, Claimable s ctx other →
    s.prio other ≤ s.prio irq ∧ (s.prio other = s.prio irq → irq ≤ other))

/-! One claim. -/

theorem bits_sorted (x : BitVec 32) : (bits x).Pairwise (· < ·) := pairwise_lt_range.filter _

theorem plicCtxIrqs_sorted (s : PlicDev) (ctx : Nat) : (plicCtxIrqs s ctx).Pairwise (· < ·) := by
  refine pairwise_flatMap.mpr ⟨fun reg _ => ?_, ?_⟩
  · exact (bits_sorted _).map _ fun a b less => Nat.add_lt_add_left less _
  · refine pairwise_lt_range.imp fun less irq first other second => ?_
    have word := (mem_word_bits.mp first).1
    have word' := (mem_word_bits.mp second).1
    omega

/-- The running maximum moves only to a higher priority, so it stays at the first source that has it. -/
theorem plicScan_first_from (s : PlicDev) (ctx : Nat) (acc : PlicScan) {irqs : List Nat}
    (sorted : irqs.Pairwise (· < ·)) :
    let scan := irqs.foldl (plicScanIrq s ctx) acc
    (scan.maxPrio = acc.maxPrio → scan.maxIrq = acc.maxIrq) ∧
      (acc.maxPrio < scan.maxPrio → ∀ irq ∈ irqs, s.prio irq = scan.maxPrio → scan.maxIrq ≤ irq) := by
  induction irqs generalizing acc with
  | nil => exact ⟨fun _ => rfl, fun less => absurd less (BitVec.lt_irrefl _)⟩
  | cons irq rest ih =>
    obtain ⟨least, sorted⟩ := pairwise_cons.mp sorted
    obtain ⟨same, first⟩ := ih (plicScanIrq s ctx acc irq) sorted
    obtain ⟨-, above, -⟩ := plicScan_max_from s ctx (plicScanIrq s ctx acc irq) rest
    rw [foldl_cons]
    generalize rest.foldl (plicScanIrq s ctx) (plicScanIrq s ctx acc irq) = scan at same first above
    by_cases more : acc.maxPrio < s.prio irq
    · have prio : (plicScanIrq s ctx acc irq).maxPrio = s.prio irq := by simp [plicScanIrq, more]
      have here : (plicScanIrq s ctx acc irq).maxIrq = irq := by simp [plicScanIrq, more]
      rw [prio, here] at same
      rw [prio] at first above
      refine ⟨fun unchanged => ?_, fun _ other member equal => ?_⟩
      · exact absurd (unchanged ▸ above) (BitVec.not_le.mpr more)
      · rcases mem_cons.mp member with rfl | later
        · exact (same equal.symm).le
        · by_cases passed : s.prio irq < scan.maxPrio
          · exact first passed other later equal
          · rw [same (BitVec.le_antisymm (BitVec.not_lt.mp passed) above)]
            exact (least other later).le
    · have prio : (plicScanIrq s ctx acc irq).maxPrio = acc.maxPrio := by simp [plicScanIrq, more]
      have here : (plicScanIrq s ctx acc irq).maxIrq = acc.maxIrq := by simp [plicScanIrq, more]
      rw [prio, here] at same
      rw [prio] at first
      refine ⟨same, fun passed other member equal => ?_⟩
      rcases mem_cons.mp member with rfl | later
      · exact absurd (equal ▸ passed) more
      · exact first passed other later equal

variable {s : PlicDev}

theorem claimable_iff (idle : SourceZeroIdle s) (ctx irq : Nat) :
    Claimable s ctx irq ↔ irq ∈ plicCtxIrqs s ctx ∧ s.prio irq ≠ 0 := by
  rw [mem_plicCtxIrqs]
  constructor
  · rintro ⟨⟨_, small⟩, pending, enabled, prio⟩
    exact ⟨⟨small, pending, enabled⟩, prio⟩
  · rintro ⟨⟨small, pending, enabled⟩, prio⟩
    refine ⟨⟨Nat.pos_of_ne_zero ?_, small⟩, pending, enabled, prio⟩
    rintro rfl
    exact nomatch idle.1.symm.trans pending

theorem plicScan_claimSpec (idle : SourceZeroIdle s) (ctx : Nat) :
    ClaimSpec s ctx (plicScan s ctx).maxIrq := by
  obtain ⟨found, all⟩ := plicScan_max s ctx
  obtain ⟨same, first⟩ := plicScan_first_from s ctx ⟨0, 0, 0⟩ (plicCtxIrqs_sorted s ctx)
  by_cases none : (plicScan s ctx).maxPrio = 0
  · refine .inl ⟨same none, fun other claimable => ?_⟩
    obtain ⟨member, prio⟩ := (claimable_iff idle ctx other).mp claimable
    have low := all other member
    rw [none] at low
    exact prio (le_zero_iff.mp low)
  · rcases found with ⟨-, zero⟩ | ⟨member, prio⟩
    · exact absurd zero none
    · refine .inr ⟨(claimable_iff idle ctx _).mpr ⟨member, prio ▸ none⟩, fun other claimable => ?_⟩
      obtain ⟨visited, -⟩ := (claimable_iff idle ctx other).mp claimable
      rw [← prio]
      have above : 0 < (plicScan s ctx).maxPrio := BitVec.not_le.mp fun low => none (BitVec.le_zero_iff.mp low)
      exact ⟨all other visited, first above other visited⟩

variable {ctx : Nat}

theorem plicClaimIrq_eq (s : PlicDev) (inside : ctx < plicCtxCount s) :
    (plicClaimIrq s ctx).1 = (plicScan s ctx).maxIrq ∧
      (plicClaimIrq s ctx).2.pending =
        if (plicScan s ctx).maxIrq = 0 then s.pending else clear s.pending (plicScan s ctx).maxIrq := by
  have regs := plicUpdateCtx_regs s ctx true
  have found : (plicUpdateCtx s ctx true).1 = (plicScan s ctx).maxIrq := rfl
  simp only [plicClaimIrq, if_pos inside, found]
  by_cases none : (plicScan s ctx).maxIrq = 0
  · rw [if_neg (not_not.mpr none), if_pos none]
    exact ⟨none.symm, regs.pending⟩
  · rw [if_pos none, if_neg none]
    exact ⟨rfl, congrArg (clear · (plicScan s ctx).maxIrq) regs.pending⟩

theorem plicClaimIrq_claims (idle : SourceZeroIdle s) (inside : ctx < plicCtxCount s) :
    ClaimSpec s ctx (plicClaimIrq s ctx).1 ∧
      ∀ irq, plicIrqPending (plicClaimIrq s ctx).2 irq =
        (decide (irq ≠ (plicClaimIrq s ctx).1) && plicIrqPending s irq) := by
  obtain ⟨claimed, pending⟩ := plicClaimIrq_eq s inside
  rw [claimed]
  refine ⟨plicScan_claimSpec idle ctx, fun irq => ?_⟩
  rw [plicIrqPending, pending]
  by_cases none : (plicScan s ctx).maxIrq = 0
  · rw [if_pos none, none, plicIrqPending]
    by_cases zero : irq = 0
    · rw [zero, decide_eq_false (not_not.mpr rfl), Bool.false_and]
      exact idle.1
    · rw [decide_eq_true zero, Bool.true_and]
  · rw [if_neg none, test_clear]
    rfl

/-- Where a thread stands in `plic_claim_irq`: before the atomic operation it makes next, with its locals. -/
inductive ClaimPc where
  | threshold (ctx : Nat)
  | line (ctx : Nat) (threshold : BitVec 32)
  | pending (ctx : Nat) (threshold : BitVec 32) (scan : PlicScan) (reg : Nat)
  | enable (ctx : Nat) (threshold : BitVec 32) (scan : PlicScan) (reg : Nat) (pending : BitVec 32)
  | prio (ctx : Nat) (threshold : BitVec 32) (scan : PlicScan) (reg : Nat) (bits : List Nat)
  | signal (ctx : Nat) (irq : Nat)
  | take (ctx : Nat) (irq : Nat)
  | done (irq : Nat)

/-- A source of the scan, its priority just read. -/
def scanPrio (threshold prio : BitVec 32) (acc : PlicScan) (irq : Nat) : PlicScan where
  signals := if threshold < prio then acc.signals + 1 else acc.signals
  maxIrq := if acc.maxPrio < prio then irq else acc.maxIrq
  maxPrio := if acc.maxPrio < prio then prio else acc.maxPrio

/-- The end of `plic_update_ctx`. -/
def scanned (ctx : Nat) (threshold : BitVec 32) (scan : PlicScan) : ClaimPc :=
  let signals := if threshold < scan.maxPrio then scan.signals - 1 else scan.signals
  if signals = 0 then .take ctx scan.maxIrq else .signal ctx scan.maxIrq

/-- The next atomic operation of a claim. -/
def claimStep (s : PlicDev) : ClaimPc → PlicDev × ClaimPc
  | .threshold ctx => (s, if ctx < plicCtxCount s then .line ctx (s.threshold ctx) else .done 0)
  | .line ctx threshold => (riscvInterruptClear s ctx, .pending ctx threshold ⟨0, 0, 0⟩ 0)
  | .pending ctx threshold scan reg =>
    (s, if reg < plicSrcRegs then .enable ctx threshold scan reg (s.pending reg) else scanned ctx threshold scan)
  | .enable ctx threshold scan reg pending =>
    (s, .prio ctx threshold scan reg (bits (pending &&& s.enable ctx reg)))
  | .prio ctx threshold scan reg [] => (s, .pending ctx threshold scan (reg + 1))
  | .prio ctx threshold scan reg (bit :: bits) =>
    (s, .prio ctx threshold (scanPrio threshold (s.prio (reg * 32 + bit)) scan (reg * 32 + bit)) reg bits)
  | .signal ctx irq => (riscvInterrupt s ctx, .take ctx irq)
  | .take ctx irq =>
    if irq = 0 then (s, .done 0)
    else if plicIrqPending s irq then ({ s with pending := clear s.pending irq }, .done irq)
    -- another claim was faster
    else (s, .threshold ctx)
  | .done irq => (s, .done irq)

/-- What the other functions of the controller do to its registers, one atomic operation at a time. -/
inductive PlicAtomic where
  | setPrio (irq : Nat) (prio : BitVec 32)
  | setEnable (ctx reg : Nat) (enable : BitVec 32)
  | setThreshold (ctx : Nat) (threshold : BitVec 32)
  | setRaised (irq : Nat) (lvl : Bool)
  | setLine (ctx : Nat) (lvl : Bool)
  | setPending (irq : Nat)

def plicAtomic (s : PlicDev) : PlicAtomic → PlicDev
  | .setPrio irq prio => { s with prio := update s.prio irq prio }
  | .setEnable ctx reg enable =>
    { s with enable := update s.enable ctx (update (s.enable ctx) reg enable) }
  | .setThreshold ctx threshold => { s with threshold := update s.threshold ctx threshold }
  | .setRaised irq lvl => { s with raised := if lvl then set s.raised irq else clear s.raised irq }
  | .setLine ctx lvl => if lvl then riscvInterrupt s ctx else riscvInterruptClear s ctx
  | .setPending irq => { s with pending := set s.pending irq }

/-- Threads that claim, and what happened so far: the newest first. -/
inductive ClaimEvent where
  | pended (irq : Nat)
  | claimed (thread irq : Nat)
  deriving DecidableEq

structure ClaimWorld where
  dev : PlicDev
  threads : Nat → ClaimPc
  log : List ClaimEvent

inductive ClaimInput where
  | call (thread ctx : Nat)
  | run (thread : Nat)
  | other (op : PlicAtomic)

def pendedBy (s : PlicDev) : PlicAtomic → List ClaimEvent
  | .setPending irq => if plicIrqPending s irq then [] else [.pended irq]
  | _ => []

def claimedBy (thread : Nat) (s : PlicDev) : ClaimPc → List ClaimEvent
  | .take _ irq => if irq ≠ 0 ∧ plicIrqPending s irq = true then [.claimed thread irq] else []
  | _ => []

def claimWorldStep (w : ClaimWorld) : ClaimInput → ClaimWorld
  | .call thread ctx =>
    match w.threads thread with
    | .done _ => { w with threads := update w.threads thread (.threshold ctx) }
    | _ => w
  | .run thread =>
    let (dev, pc) := claimStep w.dev (w.threads thread)
    { dev
      threads := update w.threads thread pc
      log := claimedBy thread w.dev (w.threads thread) ++ w.log }
  | .other op => { w with dev := plicAtomic w.dev op, log := pendedBy w.dev op ++ w.log }

def claimWorld (s : PlicDev) : ClaimWorld where
  dev := s
  threads := fun _ => .done 0
  log := []

/-! A claim that nobody disturbs. -/

/-- Steps of one claim alone. -/
def Reaches (start finish : PlicDev × ClaimPc) : Prop :=
  Relation.ReflTransGen (fun a b => claimStep a.1 a.2 = b) start finish

theorem reaches_prio (s : PlicDev) (ctx : Nat) (threshold : BitVec 32) (scan : PlicScan) (reg : Nat)
    (bits : List Nat) :
    Reaches (s, .prio ctx threshold scan reg bits) (s, .pending ctx threshold
      ((bits.map (reg * 32 + ·)).foldl (fun scan irq => scanPrio threshold (s.prio irq) scan irq) scan)
        (reg + 1)) := by
  induction bits generalizing scan with
  | nil => exact .single rfl
  | cons bit bits ih => exact .head rfl (ih _)

theorem reaches_word (s : PlicDev) (ctx : Nat) (scan : PlicScan) {reg : Nat} (inside : reg < plicSrcRegs) :
    Reaches (s, .pending ctx (s.threshold ctx) scan reg) (s, .pending ctx (s.threshold ctx)
      (((bits (s.pending reg &&& s.enable ctx reg)).map (reg * 32 + ·)).foldl (plicScanIrq s ctx) scan)
        (reg + 1)) := by
  have masked : claimStep s (.pending ctx (s.threshold ctx) scan reg) =
      (s, .enable ctx (s.threshold ctx) scan reg (s.pending reg)) := by rw [claimStep, if_pos inside]
  exact .head masked (.head rfl (reaches_prio s ctx (s.threshold ctx) scan reg _))

theorem reaches_scan (s : PlicDev) (ctx : Nat) :
    Reaches (s, .pending ctx (s.threshold ctx) ⟨0, 0, 0⟩ 0)
      (s, .pending ctx (s.threshold ctx) (plicScan s ctx) plicSrcRegs) := by
  have scan : plicScan s ctx = ((bits (s.pending 1 &&& s.enable ctx 1)).map (1 * 32 + ·)).foldl (plicScanIrq s ctx)
      (((bits (s.pending 0 &&& s.enable ctx 0)).map (0 * 32 + ·)).foldl (plicScanIrq s ctx) ⟨0, 0, 0⟩) := by
    rw [← foldl_append]
    exact congrArg (foldl (plicScanIrq s ctx) ⟨0, 0, 0⟩) (congrArg (_ ++ ·) (append_nil _))
  rw [scan]
  exact (reaches_word s ctx _ (by decide)).trans (reaches_word s ctx _ (by decide))

theorem reaches_take (s : PlicDev) (inside : ctx < plicCtxCount s) :
    Reaches (s, .threshold ctx) ((plicUpdateCtx s ctx true).2, .take ctx (plicScan s ctx).maxIrq) := by
  have entered : claimStep s (.threshold ctx) = (s, .line ctx (s.threshold ctx)) := by
    rw [claimStep, if_pos inside]
  have ended : claimStep (riscvInterruptClear s ctx)
    (.pending ctx (s.threshold ctx) (plicScan s ctx) plicSrcRegs) =
      (riscvInterruptClear s ctx, scanned ctx (s.threshold ctx) (plicScan s ctx)) := by
    rw [claimStep, if_neg (lt_irrefl _)]
  refine .head entered (.head rfl ((reaches_scan (riscvInterruptClear s ctx) ctx).trans (.head ended ?_)))
  simp only [scanned, plicUpdateCtx, Bool.true_and, decide_eq_true_eq]
  generalize (if s.threshold ctx < (plicScan s ctx).maxPrio then (plicScan s ctx).signals - 1
    else (plicScan s ctx).signals) = signals
  by_cases quiet : signals = 0
  · rw [if_pos quiet, if_pos quiet]
  · rw [if_neg quiet, if_neg quiet]
    exact .single rfl

theorem reaches_claim (s : PlicDev) (ctx : Nat) :
    Reaches (s, .threshold ctx) ((plicClaimIrq s ctx).2, .done (plicClaimIrq s ctx).1) := by
  by_cases inside : ctx < plicCtxCount s
  swap
  · have refused : claimStep s (.threshold ctx) = (s, .done 0) := by rw [claimStep, if_neg inside]
    have claim : plicClaimIrq s ctx = (0, s) := by rw [plicClaimIrq, if_neg inside]
    rw [claim]
    exact .single refused
  refine (reaches_take s inside).trans (.single ?_)
  have found : (plicUpdateCtx s ctx true).1 = (plicScan s ctx).maxIrq := rfl
  dsimp only [claimStep]
  simp only [plicClaimIrq, if_pos inside, found]
  by_cases none : (plicScan s ctx).maxIrq = 0
  · rw [if_pos none, if_neg (not_not.mpr none)]
  · have pending := plicScan_maxIrq_pending s ctx none
    rw [← (plicUpdateCtx_regs s ctx true).irqPending] at pending
    rw [if_neg none, if_pos pending, if_pos none]

/-- The newest entry about the source is not a claim. -/
def Rearmed (irq : Nat) : List ClaimEvent → Prop
  | [] => True
  | .pended source :: log => source = irq ∨ Rearmed irq log
  | .claimed _ source :: log => source ≠ irq ∧ Rearmed irq log

def Exclusive : List ClaimEvent → Prop
  | [] => True
  | .pended _ :: log => Exclusive log
  | .claimed _ source :: log => Rearmed source log ∧ Exclusive log

theorem Rearmed.pended_mem {irq thread : Nat} {between before : List ClaimEvent}
    (rearmed : Rearmed irq (between ++ .claimed thread irq :: before)) : .pended irq ∈ between := by
  induction between with
  | nil => exact absurd rfl rearmed.1
  | cons event between ih =>
    cases event with
    | pended source =>
      rcases rearmed with rfl | later
      · exact mem_cons_self
      · exact mem_cons_of_mem _ (ih later)
    | claimed _ source => exact mem_cons_of_mem _ (ih rearmed.2)

theorem Exclusive.drop {after log : List ClaimEvent} (exclusive : Exclusive (after ++ log)) : Exclusive log := by
  induction after with
  | nil => exact exclusive
  | cons event after ih =>
    cases event with
    | pended => exact ih exclusive
    | claimed => exact ih exclusive.2

/-- What is pending was not claimed last. -/
structure ClaimInv (w : ClaimWorld) : Prop where
  rearmed : ∀ irq, plicIrqPending w.dev irq = true → Rearmed irq w.log
  exclusive : Exclusive w.log

/-- The only step of a claim that touches pending bits takes one that is set. -/
theorem claimStep_cases (s : PlicDev) (thread : Nat) (pc : ClaimPc) :
    (claimedBy thread s pc = [] ∧ (claimStep s pc).1.pending = s.pending) ∨
      ∃ irq, plicIrqPending s irq = true ∧ claimedBy thread s pc = [.claimed thread irq] ∧
        (claimStep s pc).1.pending = clear s.pending irq := by
  cases pc with
  | prio ctx threshold scan reg bits => cases bits <;> exact .inl ⟨rfl, rfl⟩
  | take ctx irq =>
    by_cases zero : irq = 0
    · refine .inl ⟨if_neg fun both => both.1 zero, ?_⟩
      rw [claimStep, if_pos zero]
    · rw [claimStep, if_neg zero]
      by_cases pending : plicIrqPending s irq = true
      · refine .inr ⟨irq, pending, if_pos ⟨zero, pending⟩, ?_⟩
        rw [if_pos pending]
      · refine .inl ⟨if_neg fun both => pending both.2, ?_⟩
        rw [if_neg pending]
  | threshold | line | pending | enable | signal | done => exact .inl ⟨rfl, rfl⟩

theorem plicAtomic_cases (s : PlicDev) (op : PlicAtomic) :
    (pendedBy s op = [] ∧ (plicAtomic s op).pending = s.pending) ∨
      ∃ irq, (plicAtomic s op).pending = set s.pending irq ∧
        (pendedBy s op = [.pended irq] ∨ pendedBy s op = [] ∧ plicIrqPending s irq = true) := by
  cases op with
  | setPending irq =>
    refine .inr ⟨irq, rfl, ?_⟩
    by_cases pending : plicIrqPending s irq = true
    · exact .inr ⟨if_pos pending, pending⟩
    · exact .inl (if_neg pending)
  | setLine ctx lvl => cases lvl <;> exact .inl ⟨rfl, rfl⟩
  | setPrio | setEnable | setThreshold | setRaised => exact .inl ⟨rfl, rfl⟩

theorem claimWorldStep_keeps (w : ClaimWorld) (input : ClaimInput) (inv : ClaimInv w) :
    ClaimInv (claimWorldStep w input) := by
  cases input with
  | call thread ctx =>
    rw [claimWorldStep]
    split
    · exact ⟨inv.rearmed, inv.exclusive⟩
    · exact inv
  | run thread =>
    show ClaimInv ⟨(claimStep w.dev (w.threads thread)).1, _, _⟩
    rcases claimStep_cases w.dev thread (w.threads thread) with ⟨quiet, same⟩ | ⟨irq, pending, claimed, cleared⟩
    · refine ⟨fun irq set => ?_, ?_⟩
      · rw [plicIrqPending, same] at set
        rw [quiet]
        exact inv.rearmed irq set
      · rw [quiet]
        exact inv.exclusive
    · rw [claimed]
      refine ⟨fun other set => ?_, inv.rearmed irq pending, inv.exclusive⟩
      rw [plicIrqPending, cleared, test_clear, Bool.and_eq_true, decide_eq_true_eq] at set
      exact ⟨set.1.symm, inv.rearmed other set.2⟩
  | other op =>
    show ClaimInv ⟨plicAtomic w.dev op, _, _⟩
    rcases plicAtomic_cases w.dev op with ⟨quiet, same⟩ | ⟨irq, armed, logged⟩
    · rw [quiet]
      refine ⟨fun irq set => ?_, inv.exclusive⟩
      rw [plicIrqPending, same] at set
      exact inv.rearmed irq set
    · have before (other : Nat) (apart : other ≠ irq) (set : plicIrqPending (plicAtomic w.dev op) other = true) :
          Rearmed other w.log := by
        rw [plicIrqPending, armed, test_set, decide_eq_false apart] at set
        exact inv.rearmed other set
      rcases logged with logged | ⟨quiet, pending⟩
      · rw [logged]
        refine ⟨fun other set => ?_, inv.exclusive⟩
        by_cases here : other = irq
        · exact .inl here.symm
        · exact .inr (before other here set)
      · rw [quiet]
        refine ⟨fun other set => ?_, inv.exclusive⟩
        by_cases here : other = irq
        · rw [here]
          exact inv.rearmed irq pending
        · exact before other here set

/-! Which source a claim takes that others disturb, while the sources keep their rank. -/

def ClaimInput.Quiet : ClaimInput → Prop
  | .other (.setPrio _ _) | .other (.setEnable _ _ _) => False
  | _ => True

/-- A source that the context may take, and that `held` does not outrank. -/
structure Chosen (s : PlicDev) (held ctx irq : Nat) : Prop where
  enabled : irq ≠ 0 → plicIrqEnabled s ctx irq = true ∧ s.prio irq ≠ 0
  first : held < plicSrcLimit → plicIrqEnabled s ctx held = true → s.prio held ≠ 0 →
    s.prio held ≤ s.prio irq ∧ (s.prio held = s.prio irq → irq ≤ held)

/-- A scan below `limit` that went through `done` and goes on with `todo`. -/
structure Scanning (s : PlicDev) (held ctx : Nat) (threshold : BitVec 32) (limit : Nat) (scan : PlicScan)
    (done todo : List Nat) : Prop where
  scan : scan = done.foldl (plicScanIrq { s with threshold := fun _ => threshold } ctx) ⟨0, 0, 0⟩
  sorted : (done ++ todo).Pairwise (· < ·)
  enabled : ∀ irq ∈ done ++ todo, irq < limit ∧ plicIrqEnabled s ctx irq = true
  held : held < limit → plicIrqEnabled s ctx held = true → held ∈ done ++ todo

def Informed (s : PlicDev) (held : Nat) : ClaimPc → Prop
  | .threshold _ | .line _ _ | .done _ => True
  | .pending ctx threshold scan reg => ∃ done, Scanning s held ctx threshold (reg * 32) scan done []
  | .enable ctx threshold scan reg pending => (held / 32 = reg → pending.getLsbD (held % 32) = true) ∧
      ∃ done, Scanning s held ctx threshold (reg * 32) scan done []
  | .prio ctx threshold scan reg bits =>
      ∃ done, Scanning s held ctx threshold (reg * 32 + 32) scan done (bits.map (reg * 32 + ·))
  | .signal ctx irq | .take ctx irq => Chosen s held ctx irq

section
variable {held limit : Nat} {threshold : BitVec 32} {scan : PlicScan} {done : List Nat}

theorem Scanning.chosen (whole : Scanning s held ctx threshold limit scan done []) (all : plicSrcLimit ≤ limit) :
    Chosen s held ctx scan.maxIrq := by
  obtain ⟨rfl, sorted, enabled, read⟩ := whole
  rw [append_nil] at sorted enabled read
  obtain ⟨best, -, above⟩ := plicScan_max_from { s with threshold := fun _ => threshold } ctx ⟨0, 0, 0⟩ done
  obtain ⟨same, first⟩ := plicScan_first_from { s with threshold := fun _ => threshold } ctx ⟨0, 0, 0⟩ sorted
  generalize done.foldl (plicScanIrq { s with threshold := fun _ => threshold } ctx) ⟨0, 0, 0⟩ = scan at *
  have found (some : scan.maxPrio ≠ 0) : scan.maxIrq ∈ done ∧ scan.maxPrio = s.prio scan.maxIrq :=
    best.resolve_left fun none => some none.2
  constructor
  · intro some
    have more : scan.maxPrio ≠ 0 := fun none => some (same none)
    exact ⟨(enabled _ (found more).1).2, (found more).2 ▸ more⟩
  · intro small inside some
    have member := read (by omega) inside
    have most : s.prio held ≤ scan.maxPrio := above held member
    have more : scan.maxPrio ≠ 0 := by
      intro none
      rw [none] at most
      exact some (BitVec.le_zero_iff.mp most)
    rw [← (found more).2]
    exact ⟨most, first (BitVec.not_le.mp fun low => more (BitVec.le_zero_iff.mp low)) held member⟩

theorem Scanning.word {reg : Nat} {pending : BitVec 32}
    (scanning : Scanning s held ctx threshold (reg * 32) scan done [])
    (read : held / 32 = reg → pending.getLsbD (held % 32) = true) :
    Scanning s held ctx threshold (reg * 32 + 32) scan done
      ((bits (pending &&& s.enable ctx reg)).map (reg * 32 + ·)) := by
  obtain ⟨fold, sorted, enabled, before⟩ := scanning
  rw [append_nil] at sorted enabled before
  refine ⟨fold, pairwise_append.mpr ⟨sorted, ?_, fun irq old other new => ?_⟩, fun irq member => ?_,
    fun below inside => mem_append.mpr ?_⟩
  · exact (bits_sorted _).map _ fun a b less => Nat.add_lt_add_left less _
  · have low := (enabled irq old).1
    have word := (mem_word_bits.mp new).1
    omega
  · rcases mem_append.mp member with old | new
    · exact (enabled irq old).imp_left fun low => by omega
    · obtain ⟨rfl, hit⟩ := mem_word_bits.mp new
      rw [getLsbD_and, Bool.and_eq_true] at hit
      exact ⟨by omega, hit.2⟩
  · by_cases old : held < reg * 32
    · exact .inl (before old inside)
    · obtain rfl : held / 32 = reg := by omega
      refine .inr (mem_word_bits.mpr ⟨rfl, ?_⟩)
      rw [getLsbD_and, read rfl, Bool.true_and]
      exact inside
end

theorem claimStep_informed {now : PlicDev} {held : Nat} {pc : ClaimPc} (prio : now.prio = s.prio)
    (enable : now.enable = s.enable) (pending : plicIrqPending now held = true) (informed : Informed s held pc) :
    Informed s held (claimStep now pc).2 := by
  cases pc with
  | threshold ctx | take ctx irq =>
    rw [claimStep]
    split_ifs <;> trivial
  | line ctx threshold => exact ⟨[], rfl, .nil, nofun, fun below => absurd below (by omega)⟩
  | pending ctx threshold scan reg =>
    rw [claimStep]
    dsimp only
    split
    next inside => exact ⟨fun word => word ▸ pending, informed⟩
    next past =>
      obtain ⟨done, whole⟩ := informed
      have chosen := whole.chosen (by unfold plicSrcRegs at past; unfold plicSrcLimit; omega)
      unfold scanned
      dsimp only
      split_ifs <;> exact chosen
  | enable ctx threshold scan reg pending =>
    obtain ⟨read, done, scanning⟩ := informed
    rw [claimStep, enable]
    exact ⟨done, scanning.word read⟩
  | prio ctx threshold scan reg bits =>
    obtain ⟨done, scanning⟩ := informed
    cases bits with
    | nil =>
      refine ⟨done, ?_⟩
      rw [Nat.add_mul, Nat.one_mul]
      exact scanning
    | cons bit bits =>
      obtain ⟨rfl, sorted, enabled, read⟩ := scanning
      rw [claimStep, prio]
      rw [map_cons, append_cons] at sorted enabled read
      exact ⟨done ++ [reg * 32 + bit], by rw [foldl_append]; rfl, sorted, enabled, read⟩
  | signal ctx irq => exact informed
  | done irq => trivial

theorem claimStep_ranks (s : PlicDev) (pc : ClaimPc) :
    (claimStep s pc).1.prio = s.prio ∧ (claimStep s pc).1.enable = s.enable := by
  cases pc with
  | prio ctx threshold scan reg bits => cases bits <;> exact ⟨rfl, rfl⟩
  | take ctx irq =>
    rw [claimStep]
    split_ifs <;> exact ⟨rfl, rfl⟩
  | threshold | line | pending | enable | signal | done => exact ⟨rfl, rfl⟩

structure Ranked (s : PlicDev) (held : Nat) (w : ClaimWorld) : Prop where
  prio : w.dev.prio = s.prio
  enable : w.dev.enable = s.enable
  informed : ∀ thread, Informed s held (w.threads thread)

theorem claimWorldStep_ranked {held : Nat} (w : ClaimWorld) (input : ClaimInput) (ranked : Ranked s held w)
    (ok : input.Quiet ∧ plicIrqPending w.dev held = true) : Ranked s held (claimWorldStep w input) := by
  obtain ⟨prio, enable, informed⟩ := ranked
  have moved {thread : Nat} {pc : ClaimPc} (next : Informed s held pc) (other : Nat) :
      Informed s held (update w.threads thread pc other) :=
    (Function.forall_update_iff w.threads fun _ => Informed s held).mpr ⟨next, fun other _ => informed other⟩ other
  cases input with
  | call thread ctx =>
    rw [claimWorldStep]
    split
    · exact ⟨prio, enable, moved trivial⟩
    · exact ⟨prio, enable, informed⟩
  | run thread =>
    obtain ⟨prio', enable'⟩ := claimStep_ranks w.dev (w.threads thread)
    exact ⟨prio'.trans prio, enable'.trans enable, moved (claimStep_informed prio enable ok.2 (informed thread))⟩
  | other op =>
    cases op with
    | setPrio | setEnable => exact ok.1.elim
    | setLine ctx lvl => cases lvl <;> exact ⟨prio, enable, informed⟩
    | setThreshold | setRaised | setPending => exact ⟨prio, enable, informed⟩

/-- In every interleaving that leaves priorities and enables alone, with `held` pending all the time, a claim is
about to take only sources that `held` does not outrank. -/
theorem claims_choose (s : PlicDev) (held : Nat) (inputs : List ClaimInput)
    (steady : AllSteps claimWorldStep (fun w input => input.Quiet ∧ plicIrqPending w.dev held = true)
      (claimWorld s) inputs) :
    ∀ w ∈ visited claimWorldStep (claimWorld s) inputs, ∀ thread ctx irq, w.threads thread = .take ctx irq →
      Chosen s held ctx irq := by
  intro w member thread ctx irq taking
  have start : Ranked s held (claimWorld s) := ⟨rfl, rfl, fun _ => trivial⟩
  have informed := (invariant claimWorldStep_ranked start steady w member).informed thread
  rw [taking] at informed
  exact informed

end Rvvm.Plic
