import Mathlib.Tactic

/-! Bit helpers of the interpreter, on fixed-width words. -/
namespace Rvvm
open BitVec List

def bitMask (count : Nat) : BitVec 64 := if count < 64 then (1#64 <<< count) - 1 else allOnes 64

section
variable {w : Nat}

/-- `bit_ext_u32` at width 32, `bit_ext_u64` (also `bit_cut`) at width 64. -/
def bitExtU (val : BitVec w) (pos bits : Nat) : BitVec w := (val <<< (w - bits - pos)) >>> (w - bits)

def bitExtI (val : BitVec w) (pos bits : Nat) : BitVec w :=
  (val <<< (w - bits - pos)).sshiftRight (w - bits)

end

abbrev bitExtU32 (val : BitVec 32) (pos bits : Nat) : BitVec 32 := bitExtU val pos bits

abbrev bitExtI32 (val : BitVec 32) (pos bits : Nat) : BitVec 32 := bitExtI val pos bits

abbrev bitCut (val : BitVec 64) (pos bits : Nat) : BitVec 64 := bitExtU val pos bits

def signExtend64 (val : BitVec 64) (bits : Nat) : BitVec 64 := bitExtI val 0 bits

def bitReplace (val : BitVec 64) (pos bits : Nat) (field : BitVec 64) : BitVec 64 :=
  (val &&& ~~~ (bitMask bits <<< pos)) ||| ((field &&& bitMask bits) <<< pos)

def bitCheck (val : BitVec 64) (pos : Nat) : Bool := val.getLsbD (pos % 64)

section
variable {w : Nat}

/-- The counts are taken modulo the width, as the masks of the source do. -/
def bitRotl (val : BitVec w) (bits : Nat) : BitVec w :=
  (val <<< (bits % w)) ||| (val >>> ((w - bits % w) % w))

def bitRotr (val : BitVec w) (bits : Nat) : BitVec w :=
  (val >>> (bits % w)) ||| (val <<< ((w - bits % w) % w))

def bitClz (val : BitVec w) : BitVec w :=
  BitVec.ofNat w (((range w).reverse.takeWhile fun b => !val.getLsbD b).length)

def bitCtz (val : BitVec w) : BitVec w :=
  BitVec.ofNat w (((range w).takeWhile fun b => !val.getLsbD b).length)

def bitPopcnt (val : BitVec w) : BitVec w :=
  BitVec.ofNat w (((range w).filter fun b => val.getLsbD b).length)

/-- The loop of `bit_clmul`: at most `w` left shifts leave a nonzero `a`. -/
def bitClmulLoop : Nat → BitVec w → BitVec w → BitVec w → BitVec w
  | 0, _, _, ret => ret
  | n + 1, a, b, ret =>
    let ret := if b.getLsbD 0 then ret ^^^ a else ret
    if a <<< 1 = 0 then ret else bitClmulLoop n (a <<< 1) (b >>> 1) ret

def bitClmul (a b : BitVec w) : BitVec w := bitClmulLoop w a b 0

/-- The loop of `bit_clmulh`: the bit tested is the one after the shift. -/
def bitClmulhLoop : Nat → BitVec w → BitVec w → Nat → BitVec w → BitVec w
  | 0, _, _, _, ret => ret
  | n + 1, a, b, i, ret =>
    let b := b >>> 1
    let ret := if b.getLsbD 0 then ret ^^^ (a >>> i) else ret
    if b = 0 then ret else bitClmulhLoop n a b (i - 1) ret

def bitClmulh (a b : BitVec w) : BitVec w := bitClmulhLoop w a b (w - 1) 0

def bitClmulrLoop : Nat → BitVec w → BitVec w → Nat → BitVec w → BitVec w
  | 0, _, _, _, ret => ret
  | n + 1, a, b, i, ret =>
    let ret := if b.getLsbD 0 then ret ^^^ (a >>> i) else ret
    if b >>> 1 = 0 then ret else bitClmulrLoop n a (b >>> 1) (i - 1) ret

def bitClmulr (a b : BitVec w) : BitVec w := bitClmulrLoop w a b (w - 1) 0

end

def bitOrcB (val : BitVec 64) : BitVec 64 :=
  let hi := 0x8080808080808080#64
  let v := ((((val ||| hi) - 0x0101010101010101#64) ||| val) &&& hi) >>> 7
  (v <<< 8) - v

/-- One exchange of neighbouring groups of bits. -/
def swapGroups (val mask : BitVec 64) (n : Nat) : BitVec 64 :=
  ((val >>> n) &&& mask) ||| ((val &&& mask) <<< n)

def bitBrev8 (val : BitVec 64) : BitVec 64 :=
  swapGroups (swapGroups (swapGroups val 0x5555555555555555#64 1) 0x3333333333333333#64 2)
    0x0F0F0F0F0F0F0F0F#64 4

def byteswapUint32 (val : BitVec 32) : BitVec 32 :=
  let v := ((val >>> 8) &&& 0x00FF00FF#32) ||| ((val &&& 0x00FF00FF#32) <<< 8)
  (v >>> 16) ||| (v <<< 16)

def byteswapUint64 (val : BitVec 64) : BitVec 64 :=
  let v := swapGroups (swapGroups val 0x00FF00FF00FF00FF#64 8) 0x0000FFFF0000FFFF#64 16
  (v >>> 32) ||| (v <<< 32)

def bitInterlace16 (val : BitVec 32) : BitVec 32 :=
  let v := val &&& 0xFFFF#32
  let v := (v ||| (v <<< 8)) &&& 0x00FF00FF#32
  let v := (v ||| (v <<< 4)) &&& 0x0F0F0F0F#32
  let v := (v ||| (v <<< 2)) &&& 0x33333333#32
  (v ||| (v <<< 1)) &&& 0x55555555#32

def bitDeinterlace16 (val : BitVec 32) : BitVec 32 :=
  let v := val &&& 0x55555555#32
  let v := (v ||| (v >>> 1)) &&& 0x33333333#32
  let v := (v ||| (v >>> 2)) &&& 0x0F0F0F0F#32
  let v := (v ||| (v >>> 4)) &&& 0x00FF00FF#32
  (v ||| (v >>> 8)) &&& 0xFFFF#32

def bitZip32 (val : BitVec 32) : BitVec 32 :=
  bitInterlace16 val ||| (bitInterlace16 (val >>> 16) <<< 1)

def bitUnzip32 (val : BitVec 32) : BitVec 32 :=
  bitDeinterlace16 val ||| (bitDeinterlace16 (val >>> 1) <<< 16)

def riscvBitXperm4 (val lut : BitVec 64) : BitVec 64 :=
  (range 16).foldl
    (fun ret k => ret |||
      (bitCut val ((((lut >>> (4 * k)) &&& 0x0F#64).toNat) <<< 2) 4 <<< (4 * k))) 0

/-- `riscv_bit_xperm8` also steps by 4 bits, so it makes sixteen rounds. -/
def riscvBitXperm8 (val lut : BitVec 64) : BitVec 64 :=
  (range 16).foldl
    (fun ret k =>
      let idx := (lut >>> (4 * k)).setWidth 32
      if idx &&& 0xF8#32 = 0 then
        ret ||| (bitCut val (((idx &&& 0x07#32).toNat) <<< 3) 8 <<< (4 * k))
      else ret) 0

section Extract
variable {w : Nat}

section
variable (val : BitVec w) {pos bits : Nat} (fits : pos + bits ≤ w)
include val pos bits fits

theorem bitExtU_eq :
    bitExtU val pos bits = (val.extractLsb' pos bits).setWidth w := by
  apply eq_of_getLsbD_eq
  intro i below
  simp only [bitExtU, getLsbD_ushiftRight, getLsbD_shiftLeft, getLsbD_setWidth,
    getLsbD_extractLsb']
  by_cases inside : i < bits
  · have index : w - bits + i - (w - bits - pos) = pos + i := by omega
    have bound : w - bits + i < w := by omega
    have above : ¬ w - bits + i < w - bits - pos := by omega
    simp [below, inside, index, bound, above]
  · have bound : ¬ w - bits + i < w := by omega
    simp [bound, inside, below, decide_false, decide_true]

theorem bitExtI_eq (some : 0 < bits) :
    bitExtI val pos bits = (val.extractLsb' pos bits).signExtend w := by
  apply eq_of_getLsbD_eq
  intro i below
  have msb : (val <<< (w - bits - pos)).msb = val.getLsbD (pos + bits - 1) := by
    have index : w - 1 - (w - bits - pos) = pos + bits - 1 := by omega
    have bound : w - 1 < w := by omega
    have above : ¬ w - 1 < w - bits - pos := by omega
    simp only [msb_eq_getLsbD_last, getLsbD_shiftLeft, index, bound, above,
      decide_true, decide_false, Bool.true_and, Bool.not_false]
  have top : (val.extractLsb' pos bits).msb = val.getLsbD (pos + bits - 1) := by
    have index : pos + (bits - 1) = pos + bits - 1 := by omega
    have bound : bits - 1 < bits := by omega
    simp only [msb_eq_getLsbD_last, getLsbD_extractLsb', index, bound, decide_true,
      Bool.true_and]
  simp only [bitExtI, getLsbD_sshiftRight, getLsbD_signExtend, msb, top,
    getLsbD_shiftLeft, getLsbD_extractLsb', below]
  by_cases inside : i < bits
  · have index : w - bits + i - (w - bits - pos) = pos + i := by omega
    have bound : w - bits + i < w := by omega
    have above : ¬ w - bits + i < w - bits - pos := by omega
    have low : ¬ w ≤ i := by omega
    simp only [inside, index, bound, above, low, decide_true, decide_false, Bool.true_and,
      Bool.not_false, if_true]
  · have bound : ¬ w - bits + i < w := by omega
    have low : ¬ w ≤ i := by omega
    simp only [inside, bound, low, decide_true, decide_false, Bool.true_and, Bool.not_false,
      if_false]

end

end Extract

theorem getLsbD_bitMask (n i : Nat) (below : i < 64) : (bitMask n).getLsbD i = decide (i < n) := by
  unfold bitMask
  by_cases narrow : n < 64
  · have ones : (1#64 <<< n) - 1 = BitVec.ofNat 64 (2 ^ n - 1) := by
      apply eq_of_toNat_eq
      have small : 2 ^ n < 2 ^ 64 := Nat.pow_lt_pow_right (by decide) narrow
      have positive : 0 < 2 ^ n := Nat.two_pow_pos n
      rw [toNat_sub_of_le]
      all_goals simp [le_def, Nat.shiftLeft_eq]
      all_goals omega
    rw [if_pos narrow, ones, getLsbD_ofNat]
    simp [below]
  · rw [if_neg narrow, getLsbD_allOnes]
    simp only [below, decide_true]
    exact (decide_eq_true (by omega)).symm

theorem getLsbD_bitReplace (val field : BitVec 64) (pos bits i : Nat) (below : i < 64) :
    (bitReplace val pos bits field).getLsbD i =
      if pos ≤ i ∧ i < pos + bits then field.getLsbD (i - pos) else val.getLsbD i := by
  unfold bitReplace
  simp only [getLsbD_or, getLsbD_and, getLsbD_not, getLsbD_shiftLeft, below,
    decide_true, Bool.true_and, getLsbD_bitMask bits (i - pos) (by omega)]
  by_cases low : i < pos
  · simp [low, show ¬ pos ≤ i by omega]
  · by_cases inside : i < pos + bits
    · simp [low, inside, show pos ≤ i by omega, show i - pos < bits by omega]
    · simp [low, inside, show ¬ i - pos < bits by omega]

/-- The bit scan of 64-bit hosts rounds down. -/
def bitNextPow2 (val : Nat) : Nat := if val &&& (val - 1) = 0 then val else 2 ^ val.log2

theorem bitNextPow2_eq {val : Nat} (pos : 0 < val) : bitNextPow2 val = 2 ^ val.log2 := by
  unfold bitNextPow2
  split
  next single =>
    by_contra other
    have low : 2 ^ val.log2 ≤ val := Nat.log2_self_le (Nat.ne_of_gt pos)
    have high : val < 2 ^ (val.log2 + 1) := Nat.lt_log2_self
    have bit := Nat.testBit_of_two_pow_le_and_two_pow_add_one_gt low high
    have below := Nat.testBit_of_two_pow_le_and_two_pow_add_one_gt (show 2 ^ val.log2 ≤ val - 1 by omega)
      (by omega)
    have both := congrArg (fun x => x.testBit val.log2) single
    simp [Nat.testBit_and, bit, below] at both
  · rfl

end Rvvm
