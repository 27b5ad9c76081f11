import Mathlib.Tactic

/-! Storage addressed by naturals, read and written in runs of consecutive places. -/
namespace Slices
open List Nat Option

variable {α : Type*}

def load (m : Nat → α) (off n : Nat) : List α := (range n).map fun i => m (off + i)

def store (m : Nat → α) (off : Nat) (xs : List α) : Nat → α :=
  fun p => if off ≤ p then (xs[p - off]?).getD (m p) else m p

@[simp] theorem length_load (m : Nat → α) (off n : Nat) : (load m off n).length = n := by
  rw [load, length_map, length_range]

@[simp] theorem load_zero (m : Nat → α) (off : Nat) : load m off 0 = [] := rfl

@[simp] theorem getElem_load (m : Nat → α) {off n i : Nat} (inside : i < (load m off n).length) :
    (load m off n)[i] = m (off + i) := by
  simp [load]

theorem getElem?_load (m : Nat → α) {off n i : Nat} (inside : i < n) :
    (load m off n)[i]? = some (m (off + i)) := by
  rw [getElem?_eq_getElem (by rwa [length_load]), getElem_load]

theorem load_congr {m m' : Nat → α} {off n : Nat} (same : ∀ i < n, m (off + i) = m' (off + i)) :
    load m off n = load m' off n := by
  apply map_congr_left
  intro i member
  exact same i (mem_range.mp member)

section
variable (m : Nat → α)
include m

theorem load_add (off a b : Nat) : load m off (a + b) = load m off a ++ load m (off + a) b := by
  simp [load, range_add, Function.comp_def, add_assoc]

theorem take_load (off n k : Nat) : (load m off n).take k = load m off (min k n) := by
  rw [load, ← map_take, take_range, load]

@[simp] theorem store_nil (off : Nat) : store m off [] = m := by
  funext p
  simp [store]

theorem store_inside {off i : Nat} {xs : List α} (inside : i < xs.length) :
    store m off xs (off + i) = xs[i] := by
  simp [store, getElem?_eq_getElem inside]

theorem store_outside {off p : Nat} {xs : List α} (outside : p < off ∨ off + xs.length ≤ p) :
    store m off xs p = m p := by
  unfold store
  split
  case isTrue after =>
    have beyond : xs.length ≤ p - off := by omega
    rw [getElem?_eq_none beyond, getD_none]
  case isFalse => rfl

theorem store_singleton (off : Nat) (x : α) : store m off [x] = Function.update m off x := by
  funext p
  by_cases here : p = off
  · subst here
    rw [Function.update_self]
    have inside : 0 < [x].length := zero_lt_one
    exact store_inside m inside
  · rw [Function.update_of_ne here]
    refine store_outside m ?_
    rw [length_singleton]
    omega

theorem load_store (off : Nat) (xs : List α) : load (store m off xs) off xs.length = xs := by
  apply ext_getElem (length_load _ _ _)
  intro i _ inside
  rw [getElem_load, store_inside m inside]

theorem load_store_apart {off at' n : Nat} {xs : List α}
    (apart : at' + n ≤ off ∨ off + xs.length ≤ at') : load (store m off xs) at' n = load m at' n := by
  refine load_congr fun i inside => store_outside m ?_
  omega

theorem store_load (off n : Nat) : store m off (load m off n) = m := by
  funext p
  by_cases inside : off ≤ p ∧ p < off + n
  · obtain ⟨i, rfl⟩ := Nat.exists_eq_add_of_le inside.1
    rw [store_inside m (by rw [length_load]; omega), getElem_load]
  · refine store_outside m ?_
    rw [length_load]
    omega

theorem store_append (off : Nat) (xs ys : List α) :
    store (store m off xs) (off + xs.length) ys = store m off (xs ++ ys) := by
  funext p
  by_cases first : p < off + xs.length
  · rw [store_outside _ (.inl first)]
    by_cases before : p < off
    · rw [store_outside m (.inl before), store_outside m (.inl before)]
    · obtain ⟨i, rfl⟩ := Nat.exists_eq_add_of_le (Nat.le_of_not_lt before)
      have inside : i < xs.length := by omega
      rw [store_inside m inside, store_inside m (by rw [length_append]; omega),
        getElem_append_left inside]
  · obtain ⟨j, rfl⟩ := Nat.exists_eq_add_of_le (Nat.le_of_not_lt first)
    by_cases second : j < ys.length
    · have inside : xs.length + j < (xs ++ ys).length := by
        rw [length_append]
        omega
      rw [store_inside _ second, add_assoc, store_inside m inside,
        getElem_append_right (le_add_right _ _)]
      simp
    · rw [store_outside _ (.inr (by omega)), store_outside m (.inr (by omega)),
        store_outside m (.inr (by rw [length_append]; omega))]

end

/-! Storage of `n` places whose end is followed by its beginning. -/

def wrap (n p : Nat) : Nat := if p < n then p else p - n

theorem wrap_of_lt {n p : Nat} (inside : p < n) : wrap n p = p := if_pos inside

theorem wrap_of_le {n p : Nat} (past : n ≤ p) : wrap n p = p - n := if_neg (not_lt.mpr past)

/-- A run that reaches the end goes on at the beginning. -/
theorem load_wrap (m : Nat → α) {n s k : Nat} (inside : s ≤ n) :
    load m s (min (n - s) k) ++ load m 0 (k - min (n - s) k) = (range k).map fun i => m (wrap n (s + i)) := by
  apply ext_getElem
  · simp only [length_append, length_load, length_map, length_range]
    omega
  · intro i left right
    rw [length_map, length_range] at right
    rw [getElem_map, getElem_range]
    by_cases first : s + i < n
    · rw [getElem_append_left (by rw [length_load]; omega), getElem_load, wrap_of_lt first]
    · rw [getElem_append_right (by rw [length_load]; omega), getElem_load,
        wrap_of_le (Nat.le_of_not_lt first)]
      congr 1
      rw [length_load]
      omega

theorem store_wrap (m : Nat → α) {n s i : Nat} {xs : List α} (inside : s ≤ n) (fits : xs.length ≤ n)
    (below : i < n) :
    store (store m s (xs.take (min (n - s) xs.length))) 0 (xs.drop (min (n - s) xs.length)) (wrap n (s + i)) =
      (xs[i]?).getD (m (wrap n (s + i))) := by
  have taken : (xs.take (min (n - s) xs.length)).length = min (n - s) xs.length := by
    rw [length_take]
    omega
  have dropped : (xs.drop (min (n - s) xs.length)).length = xs.length - min (n - s) xs.length := length_drop
  by_cases first : s + i < n
  · rw [wrap_of_lt first, store_outside _ (.inr (by omega))]
    by_cases written : i < xs.length
    · rw [store_inside m (by omega), getElem_take, getElem?_eq_getElem written, getD_some]
    · rw [store_outside m (.inr (by omega)), getElem?_eq_none (Nat.le_of_not_lt written), getD_none]
  · rw [wrap_of_le (Nat.le_of_not_lt first)]
    by_cases written : i < xs.length
    · have place : 0 + (i - min (n - s) xs.length) = s + i - n := by omega
      rw [← place, store_inside _ (by omega), getElem_drop, getElem?_eq_getElem written]
      congr 1
      omega
    · rw [store_outside _ (.inr (by omega)), store_outside m (.inl (by omega)),
        getElem?_eq_none (Nat.le_of_not_lt written), getD_none]

end Slices
