import Mathlib.Tactic

/-! Finite runs of a deterministic step function over a list of inputs. An
invariant is established once per step and lifted here to every visited state. -/
namespace Runs
open List

variable {σ α : Type*} (step : σ → α → σ)

/-- Every state visited by a run, the initial one included. -/
def visited : σ → List α → List σ
  | s, [] => [s]
  | s, a :: as => s :: visited (step s a) as

def final : σ → List α → σ
  | s, [] => s
  | s, a :: as => final (step s a) as

/-- Each step of the run meets a condition on the state before it and its input. -/
def AllSteps (ok : σ → α → Prop) : σ → List α → Prop
  | _, [] => True
  | s, a :: as => ok s a ∧ AllSteps ok (step s a) as

instance decidableAllSteps (ok : σ → α → Prop) [∀ s a, Decidable (ok s a)] :
    ∀ s as, Decidable (AllSteps step ok s as)
  | _, [] => inferInstanceAs (Decidable True)
  | s, a :: as =>
    let _ := decidableAllSteps ok (step s a) as
    inferInstanceAs (Decidable (ok s a ∧ AllSteps step ok (step s a) as))

variable {step}

section
variable (s : σ) (as : List α)

theorem final_mem_visited : final step s as ∈ visited step s as := by
  induction as generalizing s with
  | nil => exact mem_singleton.mpr rfl
  | cons a as ih => exact mem_cons_of_mem s (ih (step s a))

theorem start_mem_visited : s ∈ visited step s as := by
  cases as with
  | nil => exact mem_singleton.mpr rfl
  | cons a as => exact mem_cons_self

theorem final_concat (a : α) : final step s (as ++ [a]) = step (final step s as) a := by
  induction as generalizing s with
  | nil => rfl
  | cons b as ih => exact ih (step s b)

theorem final_append (bs : List α) : final step s (as ++ bs) = final step (final step s as) bs := by
  induction as generalizing s with
  | nil => rfl
  | cons a as ih => exact ih (step s a)

end

/-- A condition that every step meets admits every run. -/
theorem AllSteps.always {ok : σ → α → Prop} (all : ∀ s a, ok s a) (s : σ) (as : List α) :
    AllSteps step ok s as := by
  induction as generalizing s with
  | nil => trivial
  | cons a as ih => exact ⟨all s a, ih (step s a)⟩

/-- A property kept by every admitted step holds in every state of an admitted run. -/
theorem invariant {inv : σ → Prop} {ok : σ → α → Prop}
    (keeps : ∀ s a, inv s → ok s a → inv (step s a)) {s : σ} {as : List α}
    (start : inv s) (admitted : AllSteps step ok s as) : ∀ t ∈ visited step s as, inv t := by
  induction as generalizing s with
  | nil =>
    intro t member
    rw [mem_singleton.mp member]
    exact start
  | cons a as ih =>
    intro t member
    rcases mem_cons.mp member with rfl | later
    · exact start
    · exact ih (keeps s a start admitted.1) admitted.2 t later

/-- Under an invariant of the admitted steps, a condition may be replaced by what it entails. -/
theorem AllSteps.entails {inv : σ → Prop} {ok ok' : σ → α → Prop}
    (keeps : ∀ s a, inv s → ok s a → inv (step s a)) (entailed : ∀ s a, inv s → ok s a → ok' s a)
    {s : σ} {as : List α} (start : inv s) (admitted : AllSteps step ok s as) :
    AllSteps step ok' s as := by
  induction as generalizing s with
  | nil => trivial
  | cons a as ih =>
    exact ⟨entailed s a start admitted.1, ih (keeps s a start admitted.1) admitted.2⟩

/-- Where, under a fact that every step keeps, a step keeps the property exactly when its
condition holds, the runs that keep it throughout are exactly the admitted ones. -/
theorem invariant_iff {fact inv : σ → Prop} {ok : σ → α → Prop}
    (kept : ∀ s a, fact s → fact (step s a))
    (exactly : ∀ s a, fact s → inv s → (inv (step s a) ↔ ok s a)) {s : σ} (as : List α)
    (known : fact s) (start : inv s) :
    (∀ t ∈ visited step s as, inv t) ↔ AllSteps step ok s as := by
  induction as generalizing s with
  | nil => simpa [visited, AllSteps, mem_singleton] using start
  | cons a as ih =>
    simp only [visited, AllSteps, forall_mem_cons, start, true_and]
    constructor
    · intro all
      have next : inv (step s a) := all _ (start_mem_visited (step s a) as)
      exact ⟨(exactly s a known start).mp next, (ih (kept s a known) next).mp all⟩
    · rintro ⟨admitted, later⟩
      exact (ih (kept s a known) ((exactly s a known start).mpr admitted)).mpr later

end Runs
