import Rvvm.Library.Runs

/-! The command rings of the HDA controller. A write of CORBWP serves the verbs up to the write pointer, and each
response goes to the entry after RIRBWP. Ring sizes are kept in bytes, pointers count entries. -/
namespace Rvvm.HdaRings
open List Nat Runs

/-- `verbs` and `stores` record the entries served and the addresses the responses went to. -/
structure Hda (σ : Type) where
  corbLo : BitVec 32
  corbRp : Nat
  corbRprst : Bool
  corbWp : Nat
  corbSize : Nat
  corbctl : BitVec 8
  rirbLo : BitVec 32
  rirbWp : Nat
  rirbSize : Nat
  codec : σ
  mem : Nat → BitVec 8
  verbs : List Nat
  stores : List Nat

/-- The codec's verbs, and the guest memory that can be reached by DMA. -/
structure Host (σ : Type) where
  respond : σ → BitVec 32 → σ × BitVec 32
  dma : Nat → Nat → Bool

variable {σ : Type} (host : Host σ)

def readU32 (mem : Nat → BitVec 8) (a : Nat) : BitVec 32 :=
  mem (a + 3) ++ mem (a + 2) ++ mem (a + 1) ++ mem a

def writeU32 (mem : Nat → BitVec 8) (a : Nat) (val : BitVec 32) : Nat → BitVec 8 :=
  fun b => if a ≤ b ∧ b < a + 4 then (val >>> (8 * (b - a))).setWidth 8 else mem b

/-- Stores a response; `none` if it divides by a ring size of zero. -/
def soundHdaWriteRirb (s : Hda σ) (cad response : BitVec 32) : Option (Hda σ) :=
  if s.rirbSize = 0 then none
  else
    let rirbWp := (s.rirbWp + 1) % s.rirbSize
    let rirb := s.rirbLo.toNat + rirbWp * 8
    let s := { s with rirbWp := rirbWp, stores := s.stores ++ [rirb] }
    some (if host.dma rirb 8 then { s with mem := writeU32 (writeU32 s.mem rirb response) (rirb + 4) cad } else s)

def soundHdaCodecCmd (s : Hda σ) (cmd : BitVec 32) : Option (Hda σ) :=
  if cmd = 0 then some s
  else
    let answer := host.respond s.codec cmd
    soundHdaWriteRirb host { s with codec := answer.1 } (cmd >>> 28) answer.2

/-- The loop of `sound_hda_corb_wp_write`, for at most the given number of rounds. -/
def corbLoop (corb entries : Nat) : Nat → Hda σ → Option (Hda σ)
  | 0, s => if s.corbRp = s.corbWp then some s else none
  | rounds + 1, s =>
    if s.corbRp = s.corbWp then some s
    else
      let rp := (s.corbRp + 1) % entries
      let served := { s with corbRp := rp, verbs := s.verbs ++ [rp] }
      (soundHdaCodecCmd host served (readU32 s.mem (corb + 4 * rp))).bind (corbLoop corb entries rounds)

/-- The write pointer is set, and nothing served yet. -/
def Hda.setCorbWp (s : Hda σ) (v : BitVec 32) : Hda σ :=
  { s with corbWp := (v &&& 0xFF).toNat, verbs := [], stores := [] }

def soundHdaCorbWpWrite (rounds : Nat) (s : Hda σ) (v : BitVec 32) : Option (Hda σ) :=
  let s := s.setCorbWp v
  if s.corbSize = 0 then some s
  else
    let entries := s.corbSize / 4
    if host.dma s.corbLo.toNat (entries * 4) then corbLoop host s.corbLo.toNat entries rounds s else some s

def grCorbRpWrite (s : Hda σ) (v : BitVec 32) : Hda σ :=
  if v &&& 0x8000 ≠ 0 then
    if s.corbctl &&& 0x2 ≠ 0 then s else { s with corbRprst := true, corbRp := 0 }
  else { s with corbRprst := false, corbRp := (v &&& 0xFF).toNat }

def hdaCorbSizes : Nat → Nat := fun i => [8, 64, 1024, 0].getD i 0

def hdaRirbSizes : Nat → Nat := fun i => [16, 128, 2048, 0].getD i 0

def grCorbSizeWrite (s : Hda σ) (v : BitVec 32) : Hda σ :=
  let sz := hdaCorbSizes (v &&& 0x3).toNat
  if sz ≠ 0 then { s with corbSize := sz } else s

def grRirbSizeWrite (s : Hda σ) (v : BitVec 32) : Hda σ :=
  let sz := hdaRirbSizes (v &&& 0x3).toNat
  if sz ≠ 0 then { s with rirbSize := sz } else s

def grRirbWpWrite (s : Hda σ) (v : BitVec 32) : Hda σ :=
  { s with rirbWp := if v &&& 0x8000 ≠ 0 then 0 else (v &&& 0xFF).toNat }

/-- A register the guest writes, or its own write to memory. -/
inductive Step
  | corbLo (v : BitVec 32)
  | corbWp (v : BitVec 32)
  | corbRp (v : BitVec 32)
  | corbCtrl (v : BitVec 8)
  | corbSize (v : BitVec 32)
  | rirbLo (v : BitVec 32)
  | rirbWp (v : BitVec 32)
  | rirbSize (v : BitVec 32)
  | store (a : Nat) (v : BitVec 32)

/-- One full ring of rounds. A write that does not end within them never ends and leaves the state as it was. -/
def step (s : Hda σ) : Step → Hda σ
  | .corbLo v => { s with corbLo := v }
  | .corbWp v => (soundHdaCorbWpWrite host (s.corbSize / 4) s v).getD s
  | .corbRp v => grCorbRpWrite s v
  | .corbCtrl v => { s with corbctl := v }
  | .corbSize v => grCorbSizeWrite s v
  | .rirbLo v => { s with rirbLo := v }
  | .rirbWp v => grRirbWpWrite s v
  | .rirbSize v => grRirbSizeWrite s v
  | .store a v => { s with mem := writeU32 s.mem a v }

/-- How many entries follow the read pointer up to the write pointer in a ring of `n`. -/
def pending (n rp wp : Nat) : Nat :=
  if rp = wp then 0 else if rp % n < wp then wp - rp % n else wp + n - rp % n

/-- The entries after `p` in a ring of `n`, in order. -/
def entriesAfter (n p k : Nat) : List Nat := (range k).map fun j => (p + 1 + j) % n

/-- What a write serves: the pending verbs, in order, with their responses at the next entries of the response
ring and nothing stored outside it. -/
structure Served (n : Nat) (s t : Hda σ) : Prop where
  verbs : t.verbs = s.verbs ++ entriesAfter n s.corbRp (pending n s.corbRp s.corbWp)
  ends : t.corbRp = s.corbWp
  stores : ∃ k ≤ pending n s.corbRp s.corbWp,
    t.stores = s.stores ++ (entriesAfter (s.rirbSize / 8) s.rirbWp k).map fun i => s.rirbLo.toNat + 8 * i
  frame : ∀ a, a < s.rirbLo.toNat ∨ s.rirbLo.toNat + s.rirbSize ≤ a → t.mem a = s.mem a

/-- The command ring is set up and can be reached. -/
def Hda.hasRing (s : Hda σ) : Bool := s.corbSize ≠ 0 && host.dma s.corbLo.toNat (s.corbSize / 4 * 4)

/-- A write of CORBWP ends within one ring of rounds and serves at most one ring; without a ring it serves none. -/
def Meets (s : Hda σ) : Step → Prop
  | .corbWp v =>
    let n := s.corbSize / 4
    ∃ t, soundHdaCorbWpWrite host n s v = some t ∧
      if s.hasRing host then pending n s.corbRp (s.setCorbWp v).corbWp ≤ n ∧ Served n (s.setCorbWp v) t
      else t = s.setCorbWp v
  | _ => True

/-- The write pointer lies in the ring, and the response ring has an entry left for each pending verb. -/
def Roomy (s : Hda σ) : Step → Prop
  | .corbWp v =>
    let n := s.corbSize / 4
    let wp := (s.setCorbWp v).corbWp
    s.hasRing host = true → s.corbRp = wp ∨ wp < n ∧ s.rirbWp + pending n s.corbRp wp < s.rirbSize / 8
  | _ => True

/-! One round. -/

section Ring
variable {n rp wp : Nat}

theorem next_mod (rp : Nat) (pos : 0 < n) :
    (rp + 1) % n = rp % n + 1 ∧ rp % n + 1 < n ∨ (rp + 1) % n = 0 ∧ rp % n + 1 = n := by
  have below := mod_lt rp pos
  rw [← mod_add_mod]
  rcases lt_or_ge (rp % n + 1) n with inside | last
  · exact .inl ⟨mod_eq_of_lt inside, inside⟩
  · have full : rp % n + 1 = n := by omega
    exact .inr ⟨by rw [full, mod_self], full⟩

theorem pending_next (inside : wp < n) (more : rp ≠ wp) :
    pending n rp wp = 1 + pending n ((rp + 1) % n) wp := by
  have pos : 0 < n := zero_lt_of_lt inside
  have again : (rp + 1) % n % n = (rp + 1) % n := mod_mod _ _
  unfold pending
  rcases next_mod rp pos with ⟨next, small⟩ | ⟨next, last⟩
  · split_ifs <;> omega
  · split_ifs <;> omega

theorem pending_le (inside : wp < n) : pending n rp wp ≤ n := by
  unfold pending
  split_ifs <;> omega

theorem entriesAfter_add (k m : Nat) :
    entriesAfter n rp (k + m) = entriesAfter n rp k ++ entriesAfter n (rp + k) m := by
  unfold entriesAfter
  rw [range_add, map_append, map_map]
  refine congrArg _ (map_congr_left fun j _ => congrArg (· % n) ?_)
  dsimp only
  omega

theorem entriesAfter_mod (k : Nat) : entriesAfter n (rp % n) k = entriesAfter n rp k := by
  refine map_congr_left fun j _ => ?_
  rw [add_assoc, mod_add_mod, add_assoc]

end Ring

theorem writeU32_outside {mem : Nat → BitVec 8} {a b : Nat} (val : BitVec 32) (outside : b < a ∨ a + 4 ≤ b) :
    writeU32 mem a val b = mem b := if_neg (by omega)

theorem soundHdaCodecCmd_keeps {s t : Hda σ} {cmd : BitVec 32} (served : soundHdaCodecCmd host s cmd = some t) :
    t.verbs = s.verbs ∧ t.corbRp = s.corbRp ∧ t.corbWp = s.corbWp ∧ t.rirbLo = s.rirbLo ∧
      t.rirbSize = s.rirbSize := by
  unfold soundHdaCodecCmd soundHdaWriteRirb at served
  dsimp only at served
  split_ifs at served <;> obtain rfl := Option.some.inj served <;> exact ⟨rfl, rfl, rfl, rfl, rfl⟩

variable {s : Hda σ}

theorem soundHdaCodecCmd_answers (room : s.rirbWp + 1 < s.rirbSize / 8) (cmd : BitVec 32) :
    ∃ t k, soundHdaCodecCmd host s cmd = some t ∧ k ≤ 1 ∧ t.rirbWp = s.rirbWp + k ∧
      t.stores = s.stores ++ (entriesAfter (s.rirbSize / 8) s.rirbWp k).map (fun i => s.rirbLo.toNat + 8 * i) ∧
      ∀ a, a < s.rirbLo.toNat ∨ s.rirbLo.toNat + s.rirbSize ≤ a → t.mem a = s.mem a := by
  have sized : s.rirbSize ≠ 0 := by
    intro zero
    rw [zero] at room
    exact absurd room (not_lt_zero _)
  have small : (s.rirbWp + 1) % s.rirbSize = s.rirbWp + 1 := mod_eq_of_lt (by omega)
  have entry : entriesAfter (s.rirbSize / 8) s.rirbWp 1 = [s.rirbWp + 1] :=
    congrArg (fun i => [i]) (mod_eq_of_lt room)
  unfold soundHdaCodecCmd
  by_cases zero : cmd = 0
  · rw [if_pos zero]
    exact ⟨s, 0, rfl, by decide, rfl, (append_nil _).symm, fun _ _ => rfl⟩
  · simp only [if_neg zero, soundHdaWriteRirb, if_neg sized, small]
    refine ⟨_, 1, rfl, le_refl 1, ?_, ?_, ?_⟩
    · split_ifs <;> rfl
    · rw [entry, mul_comm]
      split_ifs <;> rfl
    · intro a outside
      split_ifs
      · dsimp only
        rw [writeU32_outside _ (by omega), writeU32_outside _ (by omega)]
      · rfl

theorem served_nothing {n : Nat} (equal : s.corbRp = s.corbWp) : Served n s s := by
  have none : pending n s.corbRp s.corbWp = 0 := if_pos equal
  refine ⟨?_, equal, ⟨0, zero_le _, (append_nil _).symm⟩, fun _ _ => rfl⟩
  rw [none]
  exact (append_nil _).symm

/-- The loop ends after as many rounds as verbs are pending. -/
theorem corbLoop_serves (corb : Nat) {n rounds : Nat} (inside : s.corbWp < n)
    (few : pending n s.corbRp s.corbWp ≤ rounds)
    (room : s.rirbWp + pending n s.corbRp s.corbWp < s.rirbSize / 8) :
    ∃ t, corbLoop host corb n rounds s = some t ∧ Served n s t := by
  induction rounds generalizing s with
  | zero =>
    have equal : s.corbRp = s.corbWp := by
      by_contra more
      rw [pending_next inside more] at few
      omega
    exact ⟨s, if_pos equal, served_nothing equal⟩
  | succ rounds ih =>
    by_cases equal : s.corbRp = s.corbWp
    · exact ⟨s, if_pos equal, served_nothing equal⟩
    · have next := pending_next inside equal
      have here : s.rirbWp + 1 < s.rirbSize / 8 := by omega
      obtain ⟨t, k, answered, few', moved, stores, frame⟩ := soundHdaCodecCmd_answers host
        (s := { s with corbRp := (s.corbRp + 1) % n, verbs := s.verbs ++ [(s.corbRp + 1) % n] }) here
        (readU32 s.mem (corb + 4 * ((s.corbRp + 1) % n)))
      obtain ⟨verbs, rp, wp, lo, size⟩ := soundHdaCodecCmd_keeps host answered
      dsimp only at moved stores frame verbs rp wp lo size
      obtain ⟨u, loop, served⟩ := ih (s := t) (by rw [wp]; exact inside) (by rw [rp, wp]; omega)
        (by rw [rp, wp, moved]; omega)
      refine ⟨u, ?_, ?_⟩
      · rw [corbLoop, if_neg equal]
        dsimp only
        rw [answered]
        exact loop
      · obtain ⟨m, fewer, later⟩ := served.stores
        refine ⟨?_, ?_, ⟨k + m, ?_, ?_⟩, ?_⟩
        · rw [served.verbs, verbs, rp, wp, next, entriesAfter_mod, entriesAfter_add, append_assoc]
          rfl
        · rw [served.ends, wp]
        · rw [rp, wp] at fewer
          omega
        · rw [later, stores, moved, lo, size, append_assoc, ← map_append, ← entriesAfter_add]
        · intro a outside
          rw [served.frame a (by rw [lo, size]; exact outside), frame a outside]

theorem soundHdaCorbWpWrite_ring (rounds : Nat) (ring : s.hasRing host = true) (v : BitVec 32) :
    soundHdaCorbWpWrite host rounds s v =
      corbLoop host s.corbLo.toNat (s.corbSize / 4) rounds (s.setCorbWp v) := by
  obtain ⟨sized, reached⟩ := Bool.and_eq_true_iff.mp ring
  unfold soundHdaCorbWpWrite
  dsimp only [Hda.setCorbWp]
  rw [if_neg (of_decide_eq_true sized), if_pos reached]

theorem roomy_meets {a : Step} (roomy : Roomy host s a) : Meets host s a := by
  cases a with
  | corbWp v =>
    unfold Meets
    dsimp only
    by_cases ring : s.hasRing host = true
    · rw [soundHdaCorbWpWrite_ring host _ ring]
      simp only [if_pos ring]
      rcases roomy ring with equal | ⟨inside, room⟩
      · refine ⟨s.setCorbWp v, ?_, ?_, served_nothing equal⟩
        · cases s.corbSize / 4 <;> exact if_pos equal
        · rw [pending, if_pos equal]
          exact zero_le _
      · obtain ⟨t, loop, served⟩ := corbLoop_serves host s.corbLo.toNat (s := s.setCorbWp v) inside
          (pending_le inside) room
        exact ⟨t, loop, pending_le inside, served⟩
    · refine ⟨s.setCorbWp v, ?_, by rw [if_neg ring]⟩
      unfold soundHdaCorbWpWrite
      dsimp only
      split_ifs with sized reached
      · rfl
      · exact absurd (Bool.and_eq_true_iff.mpr ⟨decide_eq_true sized, reached⟩) ring
      · rfl
  | _ => trivial

def plainHost : Host Unit := ⟨fun _ _ => ((), 0), fun _ _ => true⟩

def soundHdaInit : Hda Unit := ⟨0, 0, false, 0, 0, 0, 0, 0, 0, (), fun _ => 0, [], []⟩

instance (s : Hda Unit) (a : Step) : Decidable (Roomy plainHost s a) := by
  cases a <;> unfold Roomy <;> infer_instance

/-- A write pointer outside the ring is never reached. -/
theorem corbLoop_endless (corb : Nat) {n : Nat} (pos : 0 < n) (rounds : Nat)
    (outside : n ≤ s.corbWp) (more : s.corbRp ≠ s.corbWp) : corbLoop host corb n rounds s = none := by
  induction rounds generalizing s with
  | zero => exact if_neg more
  | succ rounds ih =>
    rw [corbLoop, if_neg more, Option.bind_eq_none_iff]
    intro t served
    obtain ⟨-, rp, wp, -, -⟩ := soundHdaCodecCmd_keeps host served
    have below := mod_lt (s.corbRp + 1) pos
    refine ih (by rw [wp]; exact outside) ?_
    rw [rp, wp]
    exact Nat.ne_of_lt (lt_of_lt_of_le below outside)

end Rvvm.HdaRings
