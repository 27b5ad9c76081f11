import Mathlib.Tactic

/-! Words with their low bits cleared, as addresses of naturally aligned regions, and the masks
such regions are described by. -/
namespace Align
open BitVec Nat
open BitVec (ofNat)

variable {w : Nat}

/-- The word with its low `n` bits cleared. -/
def alignDown (x : BitVec w) (n : Nat) : BitVec w := x &&& ~~~ (ofNat w (2 ^ n) - 1#w)

/-- The size of the region a mask describes. -/
def maskSize (mask : BitVec w) : Nat := (~~~ mask + 1#w).toNat

theorem and_not_add_and (x mask : BitVec w) : (x &&& ~~~ mask) + (x &&& mask) = x := by
  have apart : (x &&& ~~~ mask) &&& (x &&& mask) = 0#w := by
    ext i inside
    simp only [getElem_and, getElem_not, getElem_zero]
    cases mask[i] <;> simp
  rw [add_eq_or_of_and_eq_zero _ _ apart]
  ext i inside
  simp only [getElem_or, getElem_and, getElem_not]
  cases mask[i] <;> simp

theorem toNat_and_not (x mask : BitVec w) : (x &&& ~~~ mask).toNat = x.toNat - (x &&& mask).toNat := by
  have sum := congrArg BitVec.toNat (and_not_add_and x mask)
  have high : (x &&& ~~~ mask).toNat ≤ x.toNat := (toNat_and ..).trans_le and_le_left
  rw [toNat_add] at sum
  rcases lt_or_ge ((x &&& ~~~ mask).toNat + (x &&& mask).toNat) (2 ^ w) with inside | past
  · rw [mod_eq_of_lt inside] at sum
    omega
  · rw [mod_eq_sub_mod past, mod_eq_of_lt (by omega)] at sum
    omega

theorem ofNat_two_pow_sub_one {n : Nat} (inside : n < w) :
    ofNat w (2 ^ n) - 1#w = ofNat w (2 ^ n - 1) := by
  have pos : 0 < 2 ^ n := Nat.two_pow_pos n
  have less : 2 ^ n < 2 ^ w := Nat.pow_lt_pow_right (by decide) inside
  apply eq_of_toNat_eq
  rw [toNat_sub, toNat_ofNat, toNat_ofNat, toNat_ofNat, mod_eq_of_lt less,
    mod_eq_of_lt (show 1 < 2 ^ w by omega), mod_eq_of_lt (show 2 ^ n - 1 < 2 ^ w by omega),
    show 2 ^ w - 1 + 2 ^ n = 2 ^ n - 1 + 2 ^ w by omega, add_mod_right]
  exact mod_eq_of_lt (by omega)

theorem getLsbD_alignDown (x : BitVec w) {n : Nat} (inside : n < w) (i : Nat) :
    (alignDown x n).getLsbD i = (decide (n ≤ i) && x.getLsbD i) := by
  unfold alignDown
  rw [ofNat_two_pow_sub_one inside, getLsbD_and, getLsbD_not, getLsbD_ofNat]
  by_cases within : i < w
  · by_cases below : i < n
    · simp [within, below]
    · simp [within, below, Nat.le_of_not_lt below]
  · simp [within, getLsbD_of_ge x i (Nat.le_of_not_lt within)]

theorem dvd_toNat_iff (x : BitVec w) (n : Nat) : 2 ^ n ∣ x.toNat ↔ ∀ i < n, x.getLsbD i = false := by
  rw [dvd_iff_mod_eq_zero]
  constructor
  · intro rest i below
    have bit := testBit_mod_two_pow x.toNat n i
    rw [rest, zero_testBit, decide_eq_true below] at bit
    exact bit.symm
  · intro clear
    apply eq_of_testBit_eq
    intro i
    rw [testBit_mod_two_pow, zero_testBit]
    by_cases below : i < n
    · rw [← getLsbD, clear i below, Bool.and_false]
    · simp [below]

theorem alignDown_eq_self_iff (x : BitVec w) {n : Nat} (inside : n < w) :
    alignDown x n = x ↔ 2 ^ n ∣ x.toNat := by
  rw [dvd_toNat_iff]
  constructor
  · intro same i below
    rw [← same, getLsbD_alignDown x inside]
    simp [below]
  · intro clear
    apply eq_of_getLsbD_eq
    intro i _
    rw [getLsbD_alignDown x inside]
    by_cases below : i < n
    · simp [clear i below]
    · simp [Nat.le_of_not_lt below]

theorem dvd_alignDown {x : BitVec w} {g n : Nat} (inside : n < w) (aligned : 2 ^ g ∣ x.toNat) :
    2 ^ g ∣ (alignDown x n).toNat := by
  rw [dvd_toNat_iff] at aligned ⊢
  intro i below
  rw [getLsbD_alignDown x inside, aligned i below, Bool.and_false]

theorem alignDown_add_low {u low : BitVec w} {n : Nat} (inside : n < w) (aligned : ∀ i < n, u.getLsbD i = false)
    (rest : ∀ i, n ≤ i → low.getLsbD i = false) : alignDown (u + low) n = u := by
  have apart : u &&& low = 0#w := by
    apply eq_of_getLsbD_eq
    intro i _
    rw [getLsbD_and, getLsbD_zero]
    by_cases below : i < n
    · rw [aligned i below, Bool.false_and]
    · rw [rest i (Nat.le_of_not_lt below), Bool.and_false]
  rw [add_eq_or_of_and_eq_zero u low apart]
  apply eq_of_getLsbD_eq
  intro i _
  rw [getLsbD_alignDown _ inside]
  by_cases below : i < n
  · simp [below, aligned i below]
  · simp [Nat.le_of_not_lt below, rest i (Nat.le_of_not_lt below)]

theorem alignDown_add (x : BitVec w) {y : BitVec w} {n : Nat} (inside : n < w) (aligned : 2 ^ n ∣ y.toNat) :
    alignDown (y + x) n = y + alignDown x n := by
  have low (i : Nat) : (x &&& ofNat w (2 ^ n - 1)).getLsbD i = (x.getLsbD i && decide (i < n)) := by
    rw [getLsbD_and, getLsbD_ofNat]
    by_cases below : i < n
    · simp [below, Nat.lt_trans below inside]
    · simp [below]
  have apart : alignDown x n &&& (x &&& ofNat w (2 ^ n - 1)) = 0#w := by
    apply eq_of_getLsbD_eq
    intro i _
    rw [getLsbD_and, getLsbD_alignDown x inside, low]
    by_cases below : i < n <;> simp [below]
  have parts : x = alignDown x n + (x &&& ofNat w (2 ^ n - 1)) := by
    rw [add_eq_or_of_and_eq_zero _ _ apart]
    apply eq_of_getLsbD_eq
    intro i _
    rw [getLsbD_or, getLsbD_alignDown x inside, low]
    by_cases below : i < n
    · simp [below]
    · simp [below, Nat.le_of_not_lt below]
  have sum : 2 ^ n ∣ (y + alignDown x n).toNat := by
    rw [toNat_add, Nat.dvd_mod_iff (Nat.pow_dvd_pow 2 (Nat.le_of_lt inside))]
    refine Nat.dvd_add aligned ((dvd_toNat_iff _ n).mpr fun i below => ?_)
    simp [getLsbD_alignDown x inside, below]
  calc alignDown (y + x) n
      = alignDown (y + alignDown x n + (x &&& ofNat w (2 ^ n - 1))) n := by rw [BitVec.add_assoc, ← parts]
    _ = y + alignDown x n := by
      refine alignDown_add_low inside ((dvd_toNat_iff _ n).mp sum) fun i above => ?_
      simp [low, Nat.not_lt_of_le above]

theorem maskSize_eq {mask : BitVec w} {m : Nat} (bits : ∀ i < w, mask.getLsbD i = decide (m ≤ i)) :
    maskSize mask = if m < w then 2 ^ m else 0 := by
  unfold maskSize
  by_cases inside : m < w
  · have pos : 0 < 2 ^ m := Nat.two_pow_pos m
    have less : 2 ^ m < 2 ^ w := Nat.pow_lt_pow_right (by decide) inside
    have low : ~~~ mask = ofNat w (2 ^ m - 1) := by
      apply eq_of_getLsbD_eq
      intro i within
      rw [getLsbD_not, bits i within, getLsbD_ofNat]
      by_cases below : i < m
      · simp [within, below]
      · simp [within, below, Nat.le_of_not_lt below]
    rw [if_pos inside, low, toNat_add, toNat_ofNat, toNat_ofNat,
      mod_eq_of_lt (show 1 < 2 ^ w by omega), mod_eq_of_lt (show 2 ^ m - 1 < 2 ^ w by omega),
      Nat.sub_add_cancel pos, Nat.mod_eq_of_lt less]
  · have zero : mask = 0#w := by
      apply eq_of_getLsbD_eq
      intro i within
      rw [bits i within, getLsbD_zero]
      exact decide_eq_false (by omega)
    rw [if_neg inside, zero, BitVec.not_zero, ← BitVec.neg_one_eq_allOnes, BitVec.add_comm, BitVec.add_neg_eq_sub,
      BitVec.sub_self]
    rfl

end Align
