import Rvvm.Library.Runs
import Rvvm.Library.BitWords

/-! The interrupt line of the RTL8169, driven by two threads at once: the network thread that reports events
and a hart that writes the status and mask registers. Each access to a shared word is a step of its own. -/
namespace Rvvm.Rtl8169
open BitVec BitWords Runs

/-- Where `rtl8169_interrupt` stands; `irqs` is its local copy of the event's bit. -/
inductive NetPhase
  | idle
  | orIsr (irq : Fin 32)
  | loadImr (irqs : BitVec 32)
  | raise (irqs : BitVec 32)
  deriving DecidableEq

/-- Where a register write stands: its own access, then those of `rtl8169_update_irqs`. -/
inductive HartPhase
  | idle
  | andIsr (val : BitVec 32)
  | storeImr (val : BitVec 32)
  | loadIsr
  | loadImr (isr : BitVec 32)
  | settle (isr imr : BitVec 32)
  deriving DecidableEq

/-- `line` is the interrupt of the PCI function. -/
structure IrqState where
  isr : BitVec 32
  imr : BitVec 32
  line : Bool
  net : NetPhase
  hart : HartPhase
  deriving DecidableEq

/-- A call begins, if its thread has none under way, or a thread makes its next step. -/
inductive IrqStep
  | interrupt (irq : Fin 32)
  | writeIsr (val : BitVec 32)
  | writeImr (val : BitVec 32)
  | net
  | hart
  deriving DecidableEq

namespace IrqState

def netStep (s : IrqState) : IrqState :=
  match s.net with
  | .idle => s
  | .orIsr irq =>
    let irqs := 1#32 <<< irq.val
    { s with isr := s.isr ||| irqs, net := .loadImr irqs }
  | .loadImr irqs => { s with net := if irqs &&& s.imr ≠ 0 then .raise irqs else .idle }
  | .raise _ => { s with line := true, net := .idle }

def hartStep (s : IrqState) : IrqState :=
  match s.hart with
  | .idle => s
  | .andIsr val => { s with isr := s.isr &&& ~~~ val, hart := if s.isr &&& val ≠ 0 then .loadIsr else .idle }
  | .storeImr val => { s with imr := val &&& 0xFFFF, hart := .loadIsr }
  | .loadIsr => { s with hart := .loadImr s.isr }
  | .loadImr isr => { s with hart := .settle isr s.imr }
  | .settle isr imr => { s with line := decide (isr &&& imr ≠ 0), hart := .idle }

def step (s : IrqState) : IrqStep → IrqState
  | .interrupt irq => if s.net = .idle then { s with net := .orIsr irq } else s
  | .writeIsr val => if s.hart = .idle then { s with hart := .andIsr val } else s
  | .writeImr val => if s.hart = .idle then { s with hart := .storeImr val } else s
  | .net => s.netStep
  | .hart => s.hartStep

def Quiet (s : IrqState) : Prop := s.net = .idle ∧ s.hart = .idle

/-- The line shows whether an unmasked event is reported. -/
def Shows (s : IrqState) : Prop := s.line = true ↔ s.isr &&& s.imr ≠ 0

instance (s : IrqState) : Decidable s.Quiet := inferInstanceAs (Decidable (_ ∧ _))

instance (s : IrqState) : Decidable s.Shows := inferInstanceAs (Decidable (_ ↔ _))

end IrqState

/-! What keeps the line right: neither thread changes a word the other has decided on. -/

def NetPhase.decides : NetPhase → Bool
  | .loadImr _ | .raise _ => true
  | _ => false

def HartPhase.decides : HartPhase → Bool
  | .loadImr _ | .settle _ _ => true
  | _ => false

/-- The step changes `isr` or `imr`. -/
def IrqState.Changes (s : IrqState) : IrqStep → Bool
  | .net => match s.net with
      | .orIsr _ => true
      | _ => false
  | .hart => match s.hart with
      | .andIsr _ | .storeImr _ => true
      | _ => false
  | _ => false

def IrqState.Undisturbed (s : IrqState) (step : IrqStep) : Prop :=
  s.Changes step = true → (step = .net → s.hart.decides = false) ∧ (step = .hart → s.net.decides = false)

instance (s : IrqState) (step : IrqStep) : Decidable (s.Undisturbed step) :=
  inferInstanceAs (Decidable (_ → _))

def HartPhase.owes : HartPhase → Bool
  | .loadIsr | .loadImr _ | .settle _ _ => true
  | _ => false

def NetPhase.reported : NetPhase → BitVec 32
  | .loadImr irqs | .raise irqs => irqs
  | _ => 0

/-- The words a thread has loaded are still those of the device; a line nobody is about to set is right, or
will be with the interrupt under way. -/
structure LineInvariant (s : IrqState) : Prop where
  loaded : ∀ isr, s.hart = .loadImr isr → isr = s.isr
  settled : ∀ isr imr, s.hart = .settle isr imr → isr = s.isr ∧ imr = s.imr
  reported : s.isr &&& s.net.reported = s.net.reported
  raised : ∀ irqs, s.net = .raise irqs → irqs &&& s.imr ≠ 0
  low : s.hart.owes = false → s.line = true → s.isr &&& s.imr ≠ 0
  high : s.hart.owes = false → s.isr &&& s.imr ≠ 0 → s.line = true ∨ s.net.reported &&& s.imr ≠ 0

theorem or_and_ne_zero_iff (a b m : BitVec 32) : (a ||| b) &&& m ≠ 0 ↔ a &&& m ≠ 0 ∨ b &&& m ≠ 0 := by
  simp only [and_ne_zero_iff, getLsbD_or, Bool.or_eq_true, or_and_right, exists_or]

theorem and_ne_zero_of_sub {a b m : BitVec 32} (sub : a &&& b = b) (some : b &&& m ≠ 0) : a &&& m ≠ 0 := by
  obtain ⟨i, inB, inM⟩ := (and_ne_zero_iff b m).mp some
  rw [← sub, getLsbD_and, Bool.and_eq_true] at inB
  exact (and_ne_zero_iff a m).mpr ⟨i, inB.1, inM⟩

theorem or_and_right_self (a b : BitVec 32) : (a ||| b) &&& b = b := by
  ext i inside
  rw [getElem_and, getElem_or]
  cases a[i] <;> cases b[i] <;> rfl

theorem and_not_of_disjoint {a val : BitVec 32} (disjoint : a &&& val = 0) : a &&& ~~~ val = a := by
  ext i inside
  have bit : (a &&& val)[i] = (0#32)[i] := congrArg (fun x : BitVec 32 => x[i]) disjoint
  rw [getElem_and, getElem_zero] at bit
  rw [getElem_and, getElem_not]
  cases mine : a[i] with
  | false => rfl
  | true =>
    rw [mine, Bool.true_and] at bit
    rw [bit]
    rfl

section Steps
variable {s : IrqState} (holds : LineInvariant s)
include holds

theorem LineInvariant.net (apart : s.Undisturbed .net) : LineInvariant s.netStep := by
  unfold IrqState.netStep
  split
  case h_1 => exact holds
  case h_2 irq phase =>
    have still : s.hart.decides = false := (apart (by rw [IrqState.Changes, phase])).1 rfl
    have nothing : s.net.reported = 0 := by rw [phase]; rfl
    refine ⟨?_, ?_, ?_, ?_, ?_, ?_⟩
    · intro isr loading
      rw [show s.hart = .loadImr isr from loading] at still
      cases still
    · intro isr imr settling
      rw [show s.hart = .settle isr imr from settling] at still
      cases still
    · exact or_and_right_self _ _
    · rintro irqs ⟨⟩
    · intro calm raised
      exact (or_and_ne_zero_iff _ _ _).mpr (.inl (holds.low calm raised))
    · intro calm some
      rcases (or_and_ne_zero_iff _ _ _).mp some with old | new
      · refine .inl ((holds.high calm old).resolve_right ?_)
        rw [nothing]
        exact not_not.mpr zero_and
      · exact .inr new
  case h_3 irqs phase =>
    have mine : s.net.reported = irqs := by rw [phase]; rfl
    have reported := holds.reported
    rw [mine] at reported
    by_cases unmasked : irqs &&& s.imr ≠ 0
    · rw [if_pos unmasked]
      refine ⟨holds.loaded, holds.settled, reported, ?_, holds.low, fun _ _ => .inr unmasked⟩
      rintro other ⟨⟩
      exact unmasked
    · rw [if_neg unmasked]
      refine ⟨holds.loaded, holds.settled, and_zero, ?_, holds.low, ?_⟩
      · rintro other ⟨⟩
      · intro calm some
        have raised := holds.high calm some
        rw [mine] at raised
        exact .inl (raised.resolve_right unmasked)
  case h_4 irqs phase =>
    have mine : s.net.reported = irqs := by rw [phase]; rfl
    have reported := holds.reported
    rw [mine] at reported
    have wanted := and_ne_zero_of_sub reported (holds.raised irqs phase)
    refine ⟨holds.loaded, holds.settled, and_zero, ?_, fun _ _ => wanted, fun _ _ => .inl rfl⟩
    rintro other ⟨⟩

theorem LineInvariant.hart (apart : s.Undisturbed .hart) : LineInvariant s.hartStep := by
  unfold IrqState.hartStep
  split
  case h_1 => exact holds
  case h_2 val phase =>
    have still : s.net.decides = false := (apart (by rw [IrqState.Changes, phase])).2 rfl
    have nothing : s.net.reported = 0 := by
      cases net : s.net with
      | idle => rfl
      | orIsr irq => rfl
      | loadImr irqs | raise irqs => rw [net] at still; cases still
    have raising (irqs : BitVec 32) : s.net ≠ .raise irqs := by
      intro net
      rw [net] at still
      cases still
    by_cases cleared : s.isr &&& val ≠ 0
    · rw [if_pos cleared]
      refine ⟨?_, ?_, ?_, fun irqs net => absurd net (raising irqs), ?_, ?_⟩
      · rintro isr ⟨⟩
      · rintro isr imr ⟨⟩
      · rw [nothing]
        exact and_zero
      · rintro ⟨⟩
      · rintro ⟨⟩
    · rw [if_neg cleared, and_not_of_disjoint (not_not.mp cleared)]
      have calm : s.hart.owes = false := by rw [phase]; rfl
      refine ⟨?_, ?_, holds.reported, holds.raised, fun _ => holds.low calm, fun _ => holds.high calm⟩
      · rintro isr ⟨⟩
      · rintro isr imr ⟨⟩
  case h_3 val phase =>
    have still : s.net.decides = false := (apart (by rw [IrqState.Changes, phase])).2 rfl
    refine ⟨?_, ?_, holds.reported, ?_, ?_, ?_⟩
    · rintro isr ⟨⟩
    · rintro isr imr ⟨⟩
    · intro irqs net
      rw [show s.net = .raise irqs from net] at still
      cases still
    · rintro ⟨⟩
    · rintro ⟨⟩
  case h_4 phase =>
    refine ⟨?_, ?_, holds.reported, holds.raised, ?_, ?_⟩
    · rintro isr ⟨⟩
      rfl
    · rintro isr imr ⟨⟩
    · rintro ⟨⟩
    · rintro ⟨⟩
  case h_5 isr phase =>
    refine ⟨?_, ?_, holds.reported, holds.raised, ?_, ?_⟩
    · rintro isr ⟨⟩
    · rintro _ _ ⟨⟩
      exact ⟨holds.loaded isr phase, rfl⟩
    · rintro ⟨⟩
    · rintro ⟨⟩
  case h_6 isr imr phase =>
    obtain ⟨rfl, rfl⟩ := holds.settled isr imr phase
    refine ⟨?_, ?_, holds.reported, holds.raised, fun _ raised => of_decide_eq_true raised,
      fun _ some => .inl (decide_eq_true some)⟩
    · rintro isr ⟨⟩
    · rintro isr imr ⟨⟩

theorem LineInvariant.begins (step : IrqStep) (begins : step ≠ .net ∧ step ≠ .hart) :
    LineInvariant (s.step step) := by
  cases step with
  | interrupt irq =>
    unfold IrqState.step
    dsimp only
    split
    case isTrue idle =>
      refine ⟨holds.loaded, holds.settled, and_zero, ?_, holds.low, ?_⟩
      · rintro irqs ⟨⟩
      · intro calm some
        have raised := holds.high calm some
        rw [idle] at raised
        exact .inl (raised.resolve_right (not_not.mpr zero_and))
    case isFalse => exact holds
  | writeIsr val | writeImr val =>
    unfold IrqState.step
    dsimp only
    split
    case isTrue idle =>
      have calm : s.hart.owes = false := by rw [idle]; rfl
      refine ⟨?_, ?_, holds.reported, holds.raised, fun _ => holds.low calm, fun _ => holds.high calm⟩
      · rintro isr ⟨⟩
      · rintro isr imr ⟨⟩
    case isFalse => exact holds
  | net => exact absurd rfl begins.1
  | hart => exact absurd rfl begins.2

end Steps

variable {s : IrqState}

theorem LineInvariant.step (step : IrqStep) (holds : LineInvariant s) (apart : s.Undisturbed step) :
    LineInvariant (s.step step) := by
  by_cases net : step = .net
  · subst net
    exact holds.net apart
  · by_cases hart : step = .hart
    · subst hart
      exact holds.hart apart
    · exact holds.begins step ⟨net, hart⟩

theorem LineInvariant.shows (holds : LineInvariant s) (quiet : s.Quiet) : s.Shows := by
  have calm : s.hart.owes = false := by rw [quiet.2]; rfl
  refine ⟨holds.low calm, fun some => (holds.high calm some).resolve_right ?_⟩
  rw [quiet.1]
  exact not_not.mpr zero_and

theorem IrqState.Shows.invariant (quiet : s.Quiet) (shows : s.Shows) : LineInvariant s := by
  obtain ⟨net, hart⟩ := quiet
  refine ⟨?_, ?_, ?_, ?_, fun _ => shows.mp, fun _ some => .inl (shows.mpr some)⟩
  · rw [hart]
    rintro isr ⟨⟩
  · rw [hart]
    rintro isr imr ⟨⟩
  · rw [net]
    exact and_zero
  · rw [net]
    rintro irqs ⟨⟩

/-- In a run in which neither thread changes a word the other has decided on, the line is right whenever both
rest. -/
theorem line_shows_when_quiet {start : IrqState} (quiet : start.Quiet) (shows : start.Shows) {steps : List IrqStep}
    (apart : AllSteps IrqState.step IrqState.Undisturbed start steps) :
    ∀ s ∈ visited IrqState.step start steps, s.Quiet → s.Shows := by
  intro s reached rests
  have keeps (s : IrqState) (step : IrqStep) (holds : LineInvariant s) (apart : s.Undisturbed step) :
      LineInvariant (s.step step) := holds.step step apart
  exact (invariant keeps (shows.invariant quiet) apart s reached).shows rests

def silent : IrqState := ⟨0, 0, false, .idle, .idle⟩

/-- The mask is written while an event is being reported, but not between a load and what follows from it. -/
theorem line_shows_when_quiet_reported :
    let steps : List IrqStep := [.writeImr 1, .interrupt 0, .hart, .net, .hart, .net, .hart, .net, .hart]
    silent.Quiet ∧ silent.Shows ∧ AllSteps IrqState.step IrqState.Undisturbed silent steps ∧
      (final IrqState.step silent steps).Quiet ∧ (final IrqState.step silent steps).line = true := by
  intro steps
  have quiet : silent.Quiet := ⟨rfl, rfl⟩
  have shows : silent.Shows := by decide
  have apart : AllSteps IrqState.step IrqState.Undisturbed silent steps := by decide
  have rests : (final IrqState.step silent steps).Quiet := by decide
  have right := line_shows_when_quiet quiet shows apart _ (final_mem_visited silent steps) rests
  exact ⟨quiet, shows, apart, rests, right.mpr (by decide)⟩

/-- The hart unmasks an event and loads the status before it is reported; the network thread reports it and
raises the interrupt; the hart then lowers it for good. -/
theorem line_lost :
    let s := final IrqState.step silent
      [.writeImr 1, .hart, .hart, .interrupt 0, .net, .net, .net, .hart, .hart]
    silent.Quiet ∧ silent.Shows ∧ s.Quiet ∧ s.isr &&& s.imr ≠ 0 ∧ s.line = false := by decide

end Rvvm.Rtl8169
