import Mathlib.Tactic

/-! Ways forward on a ring of slots. -/
namespace Probing

/-- Steps forward from slot `h` to slot `c` on a ring of `n` slots. -/
def dist (n h c : Nat) : Nat := if h ≤ c then c - h else c + n - h

theorem dist_cases (n h c : Nat) :
    (h ≤ c ∧ dist n h c = c - h) ∨ (c < h ∧ dist n h c = c + n - h) := by
  by_cases order : h ≤ c
  · exact .inl ⟨order, if_pos order⟩
  · exact .inr ⟨by omega, if_neg order⟩

/-- The slot after `j` is one step further from any other slot. -/
theorem dist_next {n p j : Nat} (p_in : p < n) (j_in : j < n) (other : (j + 1) % n ≠ p) :
    dist n p ((j + 1) % n) = dist n p j + 1 := by
  by_cases wraps : j + 1 < n
  · rw [Nat.mod_eq_of_lt wraps] at other ⊢
    rcases dist_cases n p (j + 1) with ⟨_, eq⟩ | ⟨_, eq⟩ <;>
      rcases dist_cases n p j with ⟨_, eq'⟩ | ⟨_, eq'⟩ <;> omega
  · have last : j + 1 = n := by omega
    rw [last, Nat.mod_self] at other ⊢
    rcases dist_cases n p 0 with ⟨_, eq⟩ | ⟨_, eq⟩ <;>
      rcases dist_cases n p j with ⟨_, eq'⟩ | ⟨_, eq'⟩ <;> omega

/-- A way that passes `x` is the way to `x` and the way on from there. -/
theorem dist_add {n h x c : Nat} (h_in : h < n) (x_in : x < n) (c_in : c < n)
    (passed : dist n h x ≤ dist n h c) : dist n h c = dist n h x + dist n x c := by
  rcases dist_cases n h x with ⟨_, eq⟩ | ⟨_, eq⟩ <;>
    rcases dist_cases n h c with ⟨_, eq'⟩ | ⟨_, eq'⟩ <;>
    rcases dist_cases n x c with ⟨_, eq''⟩ | ⟨_, eq''⟩ <;> omega

end Probing
