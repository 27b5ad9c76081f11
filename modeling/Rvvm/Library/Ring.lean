import Rvvm.Library.Probing

/-! A ring of slots that are claimed at the tail, filled in any order and consumed at the head. As
long as the tail never catches up with the head, a claimed slot is filled only once. -/
namespace Ring
open Probing

/-- The slots from the head to the tail: those that are filled, and those that are claimed. -/
structure Slots (n head tail : Nat) (filled claimed : Nat → Prop) : Prop where
  head_in : head < n
  tail_in : tail < n
  used : ∀ t, filled t ∨ claimed t → t < n ∧ dist n head t < dist n head tail
  apart : ∀ t, claimed t → ¬ filled t

variable {n head tail : Nat} {filled claimed : Nat → Prop}

theorem Slots.empty {p : Nat} (inside : p < n) : Slots n p p (fun _ => False) (fun _ => False) where
  head_in := inside
  tail_in := inside
  used := fun _ used => used.elim False.elim False.elim
  apart := fun _ _ => id

theorem Slots.release {filled' claimed' : Nat → Prop} (slots : Slots n head tail filled claimed)
    (same : ∀ t, filled' t ↔ filled t) (fewer : ∀ t, claimed' t → claimed t) :
    Slots n head tail filled' claimed' where
  head_in := slots.head_in
  tail_in := slots.tail_in
  used := fun t used => slots.used t (used.imp (same t).mp (fewer t))
  apart := fun t claims full => slots.apart t (fewer t claims) ((same t).mp full)

section
variable (slots : Slots n head tail filled claimed)
include slots

theorem Slots.unused : ¬ (filled tail ∨ claimed tail) :=
  fun used => Nat.lt_irrefl _ (slots.used tail used).2

theorem Slots.claim (room : (tail + 1) % n ≠ head) :
    Slots n head ((tail + 1) % n) filled (fun t => claimed t ∨ t = tail) := by
  have further := dist_next slots.head_in slots.tail_in room
  refine ⟨slots.head_in, Nat.mod_lt _ (Nat.zero_lt_of_lt slots.head_in), ?_, ?_⟩
  · intro t used
    rw [further]
    by_cases last : t = tail
    · subst last
      exact ⟨slots.tail_in, Nat.lt_succ_self _⟩
    · have before := slots.used t (used.imp_right fun claims => claims.resolve_right last)
      exact ⟨before.1, Nat.lt_succ_of_lt before.2⟩
  · rintro t (claims | rfl)
    · exact slots.apart t claims
    · exact fun full => slots.unused (.inl full)

theorem Slots.fill {t : Nat} (claims : claimed t) :
    Slots n head tail (fun u => filled u ∨ u = t) (fun u => claimed u ∧ u ≠ t) where
  head_in := slots.head_in
  tail_in := slots.tail_in
  used := by
    rintro u ((full | rfl) | ⟨claims, -⟩)
    · exact slots.used u (.inl full)
    · exact slots.used u (.inr claims)
    · exact slots.used u (.inr claims)
  apart := by
    rintro u ⟨claims, other⟩ (full | same)
    · exact slots.apart u claims full
    · exact other same

theorem Slots.consume {next : Nat} (inside : next < n)
    (passed : ∀ t, t < n → dist n head t < dist n head next → filled t) :
    Slots n next tail (fun t => filled t ∧ dist n head next ≤ dist n head t) claimed := by
  have tail_after : dist n head next ≤ dist n head tail := by
    by_contra overtaken
    exact slots.unused (.inl (passed tail slots.tail_in (Nat.lt_of_not_le overtaken)))
  have tail_dist := dist_add slots.head_in inside slots.tail_in tail_after
  refine ⟨inside, slots.tail_in, ?_, fun t claims full => slots.apart t claims full.1⟩
  intro t used
  have before := slots.used t (used.imp_left And.left)
  have after : dist n head next ≤ dist n head t := by
    rcases used with full | claims
    · exact full.2
    · by_contra overtaken
      exact slots.apart t claims (passed t before.1 (Nat.lt_of_not_le overtaken))
  have t_dist := dist_add slots.head_in inside before.1 after
  exact ⟨before.1, by omega⟩
end

end Ring
