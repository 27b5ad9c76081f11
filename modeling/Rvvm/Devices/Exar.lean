import Rvvm.Library.BitWords
import Rvvm.Library.DeferredLine
import Rvvm.Library.Runs

/-! The interrupt of the Exar multi-port UART: each port keeps a bit of `irq_active`, and the call that makes
the mask non-zero or zero again drives the line of the PCI function in a step of its own. -/
namespace Rvvm.Exar
open BitVec BitWords DeferredLine Function Runs
open Function (comp_apply comp_update update_of_ne update_self)

abbrev Port := Fin 32

/-- Where `exar_irq_fn` stands for a port. -/
inductive Call
  | idle
  | update (level : Bool)
  | raise
  | lower
  deriving DecidableEq

/-- `line` is the interrupt of the PCI function, `last` the level each port last updated its bit to. -/
structure Dev where
  irqActive : BitVec 32
  line : Bool
  call : Port → Call
  last : Port → Bool

def exarPciInit : Dev := ⟨0, false, fun _ => .idle, fun _ => false⟩

def portBit (port : Port) : BitVec 32 := mask port.val

/-- The next access of the port's call. -/
def exarIrqFn (s : Dev) (port : Port) : Dev :=
  match s.call port with
  | .idle => s
  | .update true =>
    { s with
      irqActive := s.irqActive ||| portBit port
      call := update s.call port (if s.irqActive = 0 then .raise else .idle)
      last := update s.last port true }
  | .update false =>
    { s with
      irqActive := s.irqActive &&& ~~~ portBit port
      call := update s.call port (if s.irqActive = portBit port then .lower else .idle)
      last := update s.last port false }
  | .raise => { s with line := true, call := update s.call port .idle }
  | .lower => { s with line := false, call := update s.call port .idle }

/-- A port calls `exar_irq_fn`, if it has no call under way and its level changes, or makes its next step. -/
inductive Step
  | enter (port : Port) (level : Bool)
  | run (port : Port)

def step (s : Dev) : Step → Dev
  | .enter port level =>
    if s.call port = .idle ∧ s.last port = !level then
      { s with call := update s.call port (.update level) }
    else s
  | .run port => exarIrqFn s port

def Dev.Quiet (s : Dev) : Prop := ∀ port, s.call port = .idle

/-- The interrupt is raised exactly when a port's bit is set, that is when a port's last call was to raise. -/
def Dev.Shows (s : Dev) : Prop :=
  (s.line = true ↔ s.irqActive ≠ 0) ∧ (s.irqActive ≠ 0 ↔ ∃ port, s.last port = true)

def Call.owed : Call → Owed
  | .raise => .set true
  | .lower => .set false
  | _ => .nothing

def Dev.owed (s : Dev) : Port → Owed := Call.owed ∘ s.call

/-- The call of the port is about to turn the mask from zero or to zero. -/
def Dev.edge (s : Dev) (port : Port) : Bool :=
  match s.call port with
  | .update true => s.irqActive = 0
  | .update false => s.irqActive = portBit port
  | _ => false

def Dev.Orderly (s : Dev) : Step → Prop
  | .enter _ _ => True
  | .run port => s.edge port = true → ∀ other, s.owed other = .nothing

instance (s : Dev) (a : Step) : Decidable (s.Orderly a) := by
  cases a <;> unfold Dev.Orderly <;> infer_instance

/-- The mask holds the ports' levels, a call under way changes its port's, and the line follows the mask. -/
structure Inv (s : Dev) : Prop where
  turns : ∀ port level, s.call port = .update level → s.last port = !level
  bits : ∀ port : Port, s.irqActive.getLsbD port = s.last port
  tracks : Tracks (decide (s.irqActive ≠ 0)) s.line s.owed

theorem getLsbD_portBit (port other : Port) : (portBit port).getLsbD other = decide (other = port) := by
  rw [portBit, getLsbD_mask _ _ other.isLt, Nat.mod_eq_of_lt port.isLt]
  exact decide_eq_decide.mpr Fin.ext_iff.symm

theorem and_not_portBit_eq_zero {x : BitVec 32} {port : Port} (set : x.getLsbD port = true) :
    x &&& ~~~ portBit port = 0 ↔ x = portBit port := by
  constructor
  · intro gone
    refine eq_of_and_not_eq_zero gone ((and_not_eq_zero_iff _ _).mpr fun b mine => ?_)
    have below := lt_of_getLsbD mine
    have same := getLsbD_portBit port ⟨b, below⟩
    rw [mine, eq_comm, decide_eq_true_eq] at same
    rw [← same] at set
    exact set
  · rintro rfl
    exact and_not_self _

section Steps
variable {s : Dev} (inv : Inv s)
include inv

variable {port : Port}

theorem Inv.turns_update {next : Call}
    (own : ∀ level, next = .update level → s.last port = !level) (other : Port) (level : Bool)
    (updates : update s.call port next other = .update level) : s.last other = !level := by
  by_cases same : other = port
  · subst same
    rw [update_self] at updates
    exact own level updates
  · rw [update_of_ne same] at updates
    exact inv.turns other level updates

theorem Inv.enter (port : Port) (level : Bool) : Inv (step s (.enter port level)) := by
  unfold step
  dsimp only
  split
  case isFalse => exact inv
  case isTrue fresh =>
    refine ⟨inv.turns_update ?_, inv.bits, ?_⟩
    · rintro level ⟨⟩
      exact fresh.2
    · have same : (Call.update level).owed = s.owed port := by rw [Dev.owed, comp_apply, fresh.1]; rfl
      have owed : update s.owed port (Call.update level).owed = s.owed := by
        rw [same, update_eq_self]
      rw [Dev.owed, comp_update]
      exact owed ▸ inv.tracks

theorem Inv.updated {level : Bool} {mask : BitVec 32} {next : Call} (ends : ∀ l, next ≠ .update l)
    (bit : ∀ other : Port, mask.getLsbD other = if other = port then level else s.irqActive.getLsbD other)
    (tracks : Tracks (decide (mask ≠ 0)) s.line (update s.owed port next.owed)) :
    Inv { s with
      irqActive := mask, call := update s.call port next, last := update s.last port level } := by
  refine ⟨?_, ?_, ?_⟩
  · intro other l updates
    by_cases same : other = port
    · subst same
      exact absurd ((update_self ..).symm.trans updates) (ends l)
    · dsimp only at updates ⊢
      rw [update_of_ne same] at updates ⊢
      exact inv.turns other l updates
  · intro other
    dsimp only
    rw [bit other, inv.bits other, update_apply]
  · rw [Dev.owed, comp_update]
    exact tracks

theorem Inv.lineSet {high : Bool} (sets : (s.call port).owed = .set high) :
    Inv { s with line := high, call := update s.call port .idle } := by
  refine ⟨inv.turns_update nofun, inv.bits, ?_⟩
  rw [Dev.owed, comp_update]
  exact inv.tracks.set sets

theorem Inv.run (orderly : s.Orderly (.run port)) : Inv (exarIrqFn s port) := by
  unfold exarIrqFn
  split
  case h_1 => exact inv
  case h_2 updates =>
    have bit (other : Port) : (s.irqActive ||| portBit port).getLsbD other =
        if other = port then true else s.irqActive.getLsbD other := by
      rw [getLsbD_or, getLsbD_portBit]
      by_cases same : other = port <;> simp [same]
    have some : s.irqActive ||| portBit port ≠ 0 := by
      intro zero
      have mine := bit port
      rw [zero] at mine
      simp at mine
    have nothing : s.owed port = .nothing := by rw [Dev.owed, comp_apply, updates]; rfl
    by_cases empty : s.irqActive = 0
    · rw [if_pos empty]
      refine inv.updated (by simp) bit (.of_alone (fun q _ => orderly ?_ q) ?_ nofun)
      · rw [Dev.edge, updates]
        exact decide_eq_true empty
      · rintro high ⟨⟩
        exact (decide_eq_true some).symm
    · rw [if_neg empty]
      refine inv.updated (by simp) bit ?_
      rw [update_eq_self_iff.mpr nothing.symm, decide_eq_true some, ← decide_eq_true empty]
      exact inv.tracks
  case h_3 updates =>
    have bit (other : Port) : (s.irqActive &&& ~~~ portBit port).getLsbD other =
        if other = port then false else s.irqActive.getLsbD other := by
      rw [getLsbD_and, getLsbD_not, getLsbD_portBit]
      by_cases same : other = port <;> simp [same]
    have set : s.irqActive.getLsbD port = true := by
      rw [inv.bits port, inv.turns port false updates]
      rfl
    have nothing : s.owed port = .nothing := by rw [Dev.owed, comp_apply, updates]; rfl
    have gone := and_not_portBit_eq_zero set
    by_cases only : s.irqActive = portBit port
    · rw [if_pos only]
      refine inv.updated (by simp) bit (.of_alone (fun q _ => orderly ?_ q) ?_ nofun)
      · rw [Dev.edge, updates]
        exact decide_eq_true only
      · rintro high ⟨⟩
        exact (decide_eq_false (not_not.mpr (gone.mpr only))).symm
    · have some : s.irqActive ≠ 0 := by
        intro zero
        rw [zero] at set
        simp at set
      rw [if_neg only]
      refine inv.updated (by simp) bit ?_
      rw [update_eq_self_iff.mpr nothing.symm, decide_eq_true (mt gone.mp only), ← decide_eq_true some]
      exact inv.tracks
  case h_4 raises => exact inv.lineSet (by rw [raises]; rfl)
  case h_5 lowers => exact inv.lineSet (by rw [lowers]; rfl)

theorem Inv.step (a : Step) (orderly : s.Orderly a) : Inv (Exar.step s a) := by
  cases a with
  | enter port level => exact inv.enter port level
  | run port => exact inv.run orderly

theorem Inv.shows (quiet : s.Quiet) : s.Shows := by
  have line := inv.tracks.calm fun port => by rw [Dev.owed, comp_apply, quiet port]; rfl
  refine ⟨by rw [line, decide_eq_true_eq], ?_⟩
  constructor
  · intro some
    by_contra none
    refine some (eq_of_getLsbD_eq fun b below => ?_)
    refine (inv.bits ⟨b, below⟩).trans (Eq.trans ?_ getLsbD_zero.symm)
    exact Bool.eq_false_iff.mpr fun raised => none ⟨_, raised⟩
  · rintro ⟨port, raised⟩ zero
    rw [← inv.bits port, zero] at raised
    simp at raised

end Steps

theorem inv_exarPciInit : Inv exarPciInit where
  turns := nofun
  bits := fun port => by simp [exarPciInit]
  tracks := .of_calm (fun _ => rfl) rfl

/-- In every run in which the mask turns from or to zero only while no line operation is outstanding, the
interrupt shows the ports' levels whenever no call is in progress. -/
theorem fan_in_run_shows {steps : List Step} (orderly : AllSteps step Dev.Orderly exarPciInit steps) :
    ∀ s ∈ visited step exarPciInit steps, s.Quiet → s.Shows := by
  intro s reached quiet
  have keeps (s : Dev) (a : Step) (inv : Inv s) (orderly : s.Orderly a) : Inv (step s a) := inv.step a orderly
  exact (invariant keeps inv_exarPciInit orderly s reached).shows quiet

/-- Two ports raise at the same moment and one lowers: the second port's update is no edge. -/
theorem fan_in_run_shows_two :
    let steps : List Step := [.enter 0 true, .enter 1 true, .run 0, .run 1, .run 0, .enter 0 false, .run 0]
    AllSteps step Dev.Orderly exarPciInit steps ∧ (final step exarPciInit steps).Quiet ∧
      (final step exarPciInit steps).Shows := by
  intro steps
  have orderly : AllSteps step Dev.Orderly exarPciInit steps := by decide +kernel
  have quiet : (final step exarPciInit steps).Quiet := by unfold Dev.Quiet; decide +kernel
  exact ⟨orderly, quiet, fan_in_run_shows orderly _ (final_mem_visited _ _) quiet⟩

/-- Port 1 raises between the update and the line operation of port 0's call to lower. -/
theorem lowered_while_active :
    let s := final step exarPciInit
      [.enter 0 true, .run 0, .run 0, .enter 0 false, .run 0, .enter 1 true, .run 1, .run 1, .run 0]
    s.Quiet ∧ s.irqActive = 2 ∧ s.last 1 = true ∧ s.line = false ∧ ¬ s.Shows := by
  intro s
  have line : s.line = false := by decide +kernel
  have active : s.irqActive = 2 := by decide +kernel
  refine ⟨by unfold Dev.Quiet; decide +kernel, active, by decide +kernel, line, fun shows => ?_⟩
  have raised := shows.1.mpr (by rw [active]; decide)
  cases raised

end Rvvm.Exar
