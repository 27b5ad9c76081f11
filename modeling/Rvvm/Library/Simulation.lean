import Mathlib.Tactic

/-! Two machines that answer every input, and a relation under which they answer alike. -/
namespace Simulation

variable {σ τ ι ο : Type*} (f : σ → ι → ο × σ) (g : τ → ι → ο × τ)

def outputs : σ → List ι → List ο
  | _, [] => []
  | s, i :: is => (f s i).1 :: outputs (f s i).2 is

def last : σ → List ι → σ
  | s, [] => s
  | s, i :: is => last (f s i).2 is

/-- Related states answer alike and stay related. -/
def Forward (R : σ → τ → Prop) : Prop :=
  ∀ s t i, R s t → (f s i).1 = (g t i).1 ∧ R (f s i).2 (g t i).2

variable {f g} {R : σ → τ → Prop}

section
variable (forward : Forward f g R) {s : σ} {t : τ} (related : R s t) (is : List ι)
include forward related is

theorem Forward.outputs_eq :
    outputs f s is = outputs g t is := by
  induction is generalizing s t with
  | nil => rfl
  | cons i is ih =>
    obtain ⟨same, next⟩ := forward s t i related
    rw [outputs, outputs, same, ih next]

theorem Forward.last :
    R (last f s is) (Simulation.last g t is) := by
  induction is generalizing s t with
  | nil => exact related
  | cons i is ih => exact ih (forward s t i related).2
end

end Simulation
