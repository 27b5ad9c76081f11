import Rvvm.Cpu.Csr
import Rvvm.Library.Runs

/-! The timer of the core local interruptor and the supervisor timer of the harts. All comparators
are held against one time base; the pending bits are brought up to date by the writer of a
comparator, and by nobody when the time base itself is moved. -/
namespace Rvvm.Aclint
open BitVec Runs
open Function (update update_of_ne update_self)

/-- The harts of a machine and its timer, read at one clock value. -/
structure Machine (δ : Type) where
  count : Nat
  harts : Nat → Hart δ
  mtimecmp : Nat → BitVec 64
  clock : BitVec 64
  begin_ : BitVec 64

/-- The registers of a hart that a guest sets the supervisor timer up with. -/
inductive TimerCsr
  | stimecmp
  | stimecmpH
  | menvcfg
  | menvcfgH

def TimerCsr.name : TimerCsr → CsrName
  | .stimecmp => .stimecmp
  | .stimecmpH => .stimecmpH
  | .menvcfg => .menvcfg
  | .menvcfgH => .menvcfgH

inductive Write
  | mtimer (off : Nat) (data : BitVec 64)
  | csr (hart : Nat) (csr : TimerCsr) (dest : BitVec 64) (op : CsrOp)

def mtimerInterrupt : Nat := 7

def stimerInterrupt : Nat := 5

variable {δ : Type}

def Machine.mtime (m : Machine δ) : BitVec 64 := m.clock - m.begin_

def rvtimerRebase (m : Machine δ) (time : BitVec 64) : Machine δ := { m with begin_ := m.clock - time }

def aclintMtimerWrite (m : Machine δ) (off : Nat) (data : BitVec 64) : Machine δ :=
  let hartid := off >>> 3
  if hartid < m.count then
    let vm := m.harts hartid
    let m := { m with mtimecmp := update m.mtimecmp hartid data }
    let vm := if data ≤ m.mtime then riscvInterrupt vm mtimerInterrupt else riscvInterruptClear vm mtimerInterrupt
    { m with harts := update m.harts hartid vm }
  else if off = 0x7FF8 then rvtimerRebase m data
  else m

def step (m : Machine δ) : Write → Machine δ
  | .mtimer off data => aclintMtimerWrite m off data
  | .csr hart csr dest op =>
    let vm := { m.harts hart with timer := m.mtime }
    { m with harts := update m.harts hart (riscvCsrAccess vm dest op csr.name).vm }

def stce (vm : Hart δ) : Bool := (vm.csr.envcfg .machine).getLsbD 63

/-- The pending bits are what the comparators say. -/
def Consistent (m : Machine δ) : Prop :=
  ∀ h < m.count, (m.harts h).pendingIrqs.getLsbD mtimerInterrupt = decide (m.mtimecmp h ≤ m.mtime) ∧
    (stce (m.harts h) = true →
      (m.harts h).pendingIrqs.getLsbD stimerInterrupt = decide ((m.harts h).stimecmp ≤ m.mtime))

/-- The same, for the supervisor timer of a hart whether it is enabled or not. -/
def Current (m : Machine δ) : Prop :=
  ∀ h < m.count, (m.harts h).pendingIrqs.getLsbD mtimerInterrupt = decide (m.mtimecmp h ≤ m.mtime) ∧
    (m.harts h).pendingIrqs.getLsbD stimerInterrupt = decide ((m.harts h).stimecmp ≤ m.mtime)

/-- No comparator of a hart lies between the time and the one it is set to. -/
def NoneBetween (m : Machine δ) : Write → Prop
  | .mtimer off data => off = 0x7FF8 → m.count ≤ off >>> 3 → ∀ h < m.count,
      (m.mtimecmp h ≤ data ↔ m.mtimecmp h ≤ m.mtime) ∧
        ((m.harts h).stimecmp ≤ data ↔ (m.harts h).stimecmp ≤ m.mtime)
  | .csr _ _ _ _ => True

/-! ## One hart -/

variable {irq n : Nat}

theorem getLsbD_irqMask (small : irq < 32) : (irqMask irq).getLsbD n = decide (irq = n) := by
  rw [irqMask, ← twoPow_eq, getLsbD_twoPow, decide_eq_true small, Bool.true_and]

section
variable (vm : Hart δ)
include vm

theorem getLsbD_riscvInterrupt {irq : Nat} (small : irq < 32) (n : Nat) :
    (riscvInterrupt vm irq).pendingIrqs.getLsbD n = (vm.pendingIrqs.getLsbD n || decide (irq = n)) := by
  have raised : (riscvInterrupt vm irq).pendingIrqs = vm.pendingIrqs ||| irqMask irq := by
    unfold riscvInterrupt
    split <;> rfl
  rw [raised, getLsbD_or, getLsbD_irqMask small]

theorem getLsbD_riscvInterruptClear (small : irq < 32) (inside : n < 32) :
    (riscvInterruptClear vm irq).pendingIrqs.getLsbD n = (vm.pendingIrqs.getLsbD n && !decide (irq = n)) := by
  rw [riscvInterruptClear, getLsbD_and, getLsbD_not, getLsbD_irqMask small, decide_eq_true inside,
    Bool.true_and]

theorem riscvInterrupt_stimecmp (irq : Nat) : (riscvInterrupt vm irq).stimecmp = vm.stimecmp := by
  unfold riscvInterrupt
  split <;> rfl

theorem getLsbD_follow (small : irq < 32) (inside : n < 32) (due : Prop)
    [Decidable due] :
    (if due then riscvInterrupt vm irq else riscvInterruptClear vm irq).pendingIrqs.getLsbD n =
      if irq = n then decide due else vm.pendingIrqs.getLsbD n := by
  by_cases holds : due
  · rw [if_pos holds, getLsbD_riscvInterrupt vm small]
    by_cases same : irq = n <;> simp [same, holds]
  · rw [if_neg holds, getLsbD_riscvInterruptClear vm small inside]
    by_cases same : irq = n <;> simp [same, holds]

theorem stimecmp_follow (irq : Nat) (due : Prop) [Decidable due] :
    (if due then riscvInterrupt vm irq else riscvInterruptClear vm irq).stimecmp = vm.stimecmp := by
  split
  · exact riscvInterrupt_stimecmp vm irq
  · rfl

end

/-- The supervisor's bit follows its comparator, whatever is written. -/
def Follows (vm after : Hart δ) : Prop :=
  after.pendingIrqs.getLsbD mtimerInterrupt = vm.pendingIrqs.getLsbD mtimerInterrupt ∧
    (vm.pendingIrqs.getLsbD stimerInterrupt = decide (vm.stimecmp ≤ vm.timer) →
      after.pendingIrqs.getLsbD stimerInterrupt = decide (after.stimecmp ≤ vm.timer))

theorem stimecmpSet_follows (vm : Hart δ) (value : BitVec 64) : Follows vm (riscvCsrStimecmpSet vm value) := by
  unfold riscvCsrStimecmpSet
  refine ⟨?_, fun _ => ?_⟩
  · exact getLsbD_follow { vm with stimecmp := value } (by decide : 5 < 32) (by decide : 7 < 32) _
  · rw [stimecmp_follow]
    exact getLsbD_follow { vm with stimecmp := value } (by decide : 5 < 32) (by decide : 5 < 32) _

theorem csr_follows (vm : Hart δ) (csr : TimerCsr) (dest : BitVec 64) (op : CsrOp) :
    Follows vm (riscvCsrAccess vm dest op csr.name).vm := by
  have unchanged : Follows vm vm := ⟨rfl, id⟩
  cases csr with
  | stimecmp =>
    simp only [TimerCsr.name, riscvCsrAccess, riscvCsrStimecmp]
    split
    · exact stimecmpSet_follows vm _
    · exact unchanged
  | stimecmpH =>
    simp only [TimerCsr.name, riscvCsrAccess, riscvCsrStimecmpH]
    split
    · exact stimecmpSet_follows vm _
    · exact unchanged
  | menvcfg => exact unchanged
  | menvcfgH =>
    simp only [TimerCsr.name, riscvCsrAccess]
    split
    · exact unchanged
    · exact unchanged

theorem mtimer_current {m : Machine δ} (current : Current m) (off : Nat) (data : BitVec 64)
    (between : NoneBetween m (.mtimer off data)) : Current (aclintMtimerWrite m off data) := by
  unfold aclintMtimerWrite
  dsimp only
  split
  next inside =>
    intro h below
    obtain ⟨machine, supervisor⟩ := current h below
    dsimp only at below ⊢
    change _ = decide (_ ≤ m.mtime) ∧ _ = decide (_ ≤ m.mtime)
    by_cases same : h = off >>> 3
    · subst same
      rw [update_self, update_self, stimecmp_follow]
      refine ⟨getLsbD_follow _ (by decide : 7 < 32) (by decide : 7 < 32) _, ?_⟩
      exact (getLsbD_follow _ (by decide : 7 < 32) (by decide : 5 < 32) _).trans supervisor
    · rw [update_of_ne same, update_of_ne same]
      exact ⟨machine, supervisor⟩
  next outside =>
    split
    next timer =>
      intro h below
      obtain ⟨machine, supervisor⟩ := current h below
      obtain ⟨machineSide, supervisorSide⟩ := between timer (Nat.le_of_not_lt outside) h below
      have moved : (rvtimerRebase m data).mtime = data := by
        change m.clock - (m.clock - data) = data
        bv_omega
      rw [moved]
      exact ⟨machine.trans (decide_eq_decide.mpr machineSide.symm),
        supervisor.trans (decide_eq_decide.mpr supervisorSide.symm)⟩
    next => exact current

theorem step_current (m : Machine δ) (write : Write) (current : Current m) (between : NoneBetween m write) :
    Current (step m write) := by
  cases write with
  | mtimer off data => exact mtimer_current current off data between
  | csr hart csr dest op =>
    intro h below
    obtain ⟨machine, supervisor⟩ := current h below
    simp only [step]
    change _ = decide (_ ≤ m.mtime) ∧ _ = decide (_ ≤ m.mtime)
    by_cases same : h = hart
    · subst same
      rw [update_self]
      obtain ⟨kept, follows⟩ := csr_follows { m.harts h with timer := m.mtime } csr dest op
      exact ⟨kept.trans machine, follows supervisor⟩
    · rw [update_of_ne same]
      exact ⟨machine, supervisor⟩

/-- From a machine whose bits are current, every run that moves the time base across no comparator
keeps the pending bits of every hart what its comparators say. -/
theorem timer_run_consistent (m : Machine δ) (start : Current m) (writes : List Write)
    (between : AllSteps step NoneBetween m writes) :
    ∀ after ∈ visited step m writes, Consistent after := by
  intro after member h below
  obtain ⟨machine, supervisor⟩ := invariant step_current start between after member h below
  exact ⟨machine, fun _ => supervisor⟩

def oneHart : Machine Unit where
  count := 1
  harts _ := riscvHartInit .empty (fun _ => 0) [] () true false
  mtimecmp _ := 0xFFFFFFFFFFFFFFFF
  clock := 0
  begin_ := 0

def twoHarts : Machine Unit := { oneHart with count := 2 }

/-- The first hart sets a deadline of 100, the time is set to 50, and the second hart sets one of 20. -/
def deadlines : List Write := [.mtimer 0 100, .mtimer 0x7FF8 50, .mtimer 8 20]

theorem timer_run_consistent_expired :
    ((final step twoHarts deadlines).mtime = 50 ∧ ∀ h < 2,
      ((final step twoHarts deadlines).harts h).pendingIrqs.getLsbD mtimerInterrupt = decide (h = 1)) ∧
      ∀ after ∈ visited step twoHarts deadlines, Consistent after := by
  have idle : Current oneHart := by
    intro h below
    obtain rfl : h = 0 := Nat.lt_one_iff.mp below
    exact ⟨by decide +kernel, by decide +kernel⟩
  have start : Current twoHarts := fun _ _ => idle 0 Nat.zero_lt_one
  refine ⟨by decide +kernel, timer_run_consistent twoHarts start _ ⟨nofun, ?_, nofun, trivial⟩⟩
  intro _ _ h below
  have two : h < 2 := below
  interval_cases h <;> decide +kernel

/-- A deadline of 100, and the time set to 200: the hart's interrupt stays clear. -/
theorem mtime_write_leaves_pending_bit :
    let after := final step oneHart [.mtimer 0 100, .mtimer 0x7FF8 200]
    after.mtimecmp 0 ≤ after.mtime ∧ (after.harts 0).pendingIrqs.getLsbD mtimerInterrupt = false := by
  decide +kernel

end Rvvm.Aclint
