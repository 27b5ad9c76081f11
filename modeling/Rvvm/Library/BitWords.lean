import Mathlib.Tactic

/-! Bit sets kept in arrays of 32-bit words: bit `i` is bit `i % 32` of word `i / 32`. -/
namespace BitWords
open BitVec List

abbrev Words := Nat → BitVec 32

def test (w : Words) (i : Nat) : Bool := (w (i / 32)).getLsbD (i % 32)

/-- The mask of bit `i` within its word. -/
def mask (i : Nat) : BitVec 32 := 1#32 <<< (i % 32)

def set (w : Words) (i : Nat) : Words := Function.update w (i / 32) (w (i / 32) ||| mask i)

def clear (w : Words) (i : Nat) : Words := Function.update w (i / 32) (w (i / 32) &&& ~~~ mask i)

/-- The set bits of one word, lowest first: what draining it through
count-trailing-zeroes visits. -/
def bits (x : BitVec 32) : List Nat := (range 32).filter fun b => x.getLsbD b

@[simp] theorem getLsbD_mask (i b : Nat) (below : b < 32) :
    (mask i).getLsbD b = decide (b = i % 32) := by
  have hi : i % 32 < 32 := Nat.mod_lt i (by decide)
  rw [Bool.eq_iff_iff]
  simp only [mask, getLsbD_shiftLeft, getLsbD_one, Bool.and_eq_true, decide_eq_true_eq,
    Bool.not_eq_true', decide_eq_false_iff_not]
  omega

theorem index_eq_iff (i j : Nat) : j = i ↔ j / 32 = i / 32 ∧ j % 32 = i % 32 := by omega

theorem test_set (w : Words) (i j : Nat) : test (set w i) j = (decide (j = i) || test w j) := by
  have hj : j % 32 < 32 := Nat.mod_lt j (by decide)
  by_cases word : j / 32 = i / 32
  · simp only [test, set, word, Function.update_self, getLsbD_or, getLsbD_mask i _ hj,
      index_eq_iff i j, true_and]
    exact Bool.or_comm _ _
  · simp [test, set, index_eq_iff i j, word]

theorem test_clear (w : Words) (i j : Nat) :
    test (clear w i) j = (decide (j ≠ i) && test w j) := by
  have hj : j % 32 < 32 := Nat.mod_lt j (by decide)
  by_cases word : j / 32 = i / 32
  · simp only [test, clear, word, Function.update_self, getLsbD_and, getLsbD_not,
      getLsbD_mask i _ hj, hj, decide_true, Bool.true_and, ne_eq, index_eq_iff i j, true_and,
      decide_not]
    exact Bool.and_comm _ _
  · simp [test, clear, index_eq_iff i j, word]

theorem mem_bits {x : BitVec 32} {b : Nat} : b ∈ bits x ↔ x.getLsbD b = true := by
  simp only [bits, mem_filter, mem_range]
  exact ⟨fun h => h.2, fun h => ⟨lt_of_getLsbD h, h⟩⟩

/-- The bits of a word of an array, as indices into the array. -/
theorem mem_word_bits {x : BitVec 32} {word i : Nat} :
    i ∈ (bits x).map (word * 32 + ·) ↔ i / 32 = word ∧ x.getLsbD (i % 32) = true := by
  simp only [mem_map, mem_bits]
  constructor
  · rintro ⟨bit, hit, rfl⟩
    have small := lt_of_getLsbD hit
    rw [show (word * 32 + bit) / 32 = word by omega, show (word * 32 + bit) % 32 = bit by omega]
    exact ⟨rfl, hit⟩
  · rintro ⟨rfl, hit⟩
    exact ⟨i % 32, hit, by omega⟩

section
variable (x : BitVec 32)

theorem bits_nodup : (bits x).Nodup := nodup_range.filter _

/-- A word meets another exactly when some bit is set in both. -/
theorem and_ne_zero_iff (y : BitVec 32) :
    x &&& y ≠ 0 ↔ ∃ b, x.getLsbD b = true ∧ y.getLsbD b = true := by
  constructor
  · intro nonzero
    by_contra none
    apply nonzero
    apply eq_of_getLsbD_eq
    intro b _
    have hb := fun h => none ⟨b, h⟩
    simpa [getLsbD_and] using hb
  · rintro ⟨b, hx, hy⟩ zero
    have hb := congrArg (fun z : BitVec 32 => z.getLsbD b) zero
    simp [hx, hy] at hb

theorem getLsbD_and_mask (i : Nat) : (x &&& mask i != 0) = x.getLsbD (i % 32) := by
  have below : i % 32 < 32 := Nat.mod_lt i (by decide)
  rw [Bool.eq_iff_iff, bne_iff_ne, and_ne_zero_iff]
  constructor
  · rintro ⟨b, inX, inMask⟩
    have small := lt_of_getLsbD inMask
    rw [getLsbD_mask i b small, decide_eq_true_eq] at inMask
    rw [← inMask]
    exact inX
  · intro inX
    exact ⟨i % 32, inX, by rw [getLsbD_mask i _ below, decide_eq_true rfl]⟩

theorem and_mask_ne_zero (i : Nat) : x &&& mask i ≠ 0 ↔ x.getLsbD (i % 32) = true := by
  rw [← getLsbD_and_mask, bne_iff_ne]

/-- Removing one word's bits from another leaves nothing exactly when it has them all. -/
theorem and_not_eq_zero_iff (y : BitVec 32) :
    x &&& ~~~ y = 0 ↔ ∀ b, x.getLsbD b = true → y.getLsbD b = true := by
  rw [← not_iff_not, ← ne_eq, and_ne_zero_iff]
  simp only [getLsbD_not, Bool.and_eq_true, decide_eq_true_eq, Bool.not_eq_true', not_forall]
  constructor
  · rintro ⟨b, hx, -, hy⟩
    exact ⟨b, hx, by simp [hy]⟩
  · rintro ⟨b, hx, hy⟩
    exact ⟨b, hx, lt_of_getLsbD hx, by simpa using hy⟩

end

theorem eq_of_and_not_eq_zero {x y : BitVec 32} (sub : x &&& ~~~ y = 0) (sup : y &&& ~~~ x = 0) :
    x = y := by
  apply eq_of_getLsbD_eq
  intro b _
  exact Bool.eq_iff_iff.mpr
    ⟨(and_not_eq_zero_iff x y).mp sub b, (and_not_eq_zero_iff y x).mp sup b⟩

end BitWords
