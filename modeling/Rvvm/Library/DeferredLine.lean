import Mathlib.Tactic

/-! A line that several actors drive to a common level. The level changes in one step and the line is set in
a later one, by an actor that may first have to read the level again. -/
namespace DeferredLine
open Function

/-- What an actor still owes the line. -/
inductive Owed
  | nothing
  | read
  | set (high : Bool)
  deriving DecidableEq

variable {Actor : Type*} {level line : Bool} {owed : Actor → Owed}

/-- At most one actor owes the line something, and what it sets is the level of now. -/
structure Tracks (level line : Bool) (owed : Actor → Owed) : Prop where
  one : ∀ p q, owed p ≠ .nothing → owed q ≠ .nothing → p = q
  due : ∀ p high, owed p = .set high → high = level
  calm : (∀ p, owed p = .nothing) → line = level

theorem Tracks.of_calm (none : ∀ p, owed p = .nothing) (shows : line = level) : Tracks level line owed where
  one := fun p _ owes => absurd (none p) owes
  due := fun p high sets => by rw [none p] at sets; cases sets
  calm := fun _ => shows

theorem Tracks.alone (tracks : Tracks level line owed) {p : Actor} (owes : owed p ≠ .nothing) :
    ∀ q ≠ p, owed q = .nothing := by
  intro q other
  by_contra more
  exact other (tracks.one q p more owes)

variable [DecidableEq Actor]

theorem Tracks.of_alone {p : Actor} {owes : Owed} {next now : Bool} (alone : ∀ q ≠ p, owed q = .nothing)
    (due : ∀ high, owes = .set high → high = next) (calm : owes = .nothing → now = next) :
    Tracks next now (update owed p owes) := by
  have only (q : Actor) (some : update owed p owes q ≠ .nothing) : q = p := by
    by_contra other
    rw [update_of_ne other] at some
    exact some (alone q other)
  refine ⟨fun q r first second => (only q first).trans (only r second).symm, ?_, ?_⟩
  · intro q high sets
    obtain rfl := only q (by rw [sets]; exact Owed.noConfusion)
    rw [update_self] at sets
    exact due high sets
  · intro none
    have mine := none p
    rw [update_self] at mine
    exact calm mine

variable (tracks : Tracks level line owed)
include tracks

theorem Tracks.read {p : Actor} (reads : owed p = .read) :
    Tracks level line (update owed p (.set level)) := by
  refine .of_alone (tracks.alone (by rw [reads]; exact Owed.noConfusion)) ?_ nofun
  rintro high ⟨⟩
  rfl

theorem Tracks.set {p : Actor} {high : Bool} (sets : owed p = .set high) :
    Tracks level high (update owed p .nothing) :=
  .of_alone (tracks.alone (by rw [sets]; exact Owed.noConfusion)) nofun fun _ => tracks.due p high sets

end DeferredLine
