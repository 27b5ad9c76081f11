import Rvvm.Cpu.Aia

/-! The scan of an external-interrupt file in terms of identities: which one it reports, and what
it does to the file and to the pending bit of the hart. -/
namespace Rvvm
open List
open BitVec (getLsbD_and ofNat toNat_ofNat)
open Function (update update_of_ne)

variable {δ : Type}

/-! The highest bit of a word. -/

theorem takeWhile_reverse_range (clear : Nat → Bool) (w : Nat) (stops : ∃ b < w, clear b = false) :
    ∃ top, ((range w).reverse.takeWhile clear).length + top + 1 = w ∧ clear top = false ∧
      ∀ b, top < b → b < w → clear b = true := by
  induction w with
  | zero =>
    omega
  | succ w ih =>
    rw [range_succ, reverse_append, reverse_singleton, singleton_append]
    by_cases last : clear w = true
    · have below : ∃ b < w, clear b = false := by
        obtain ⟨b, under, fails⟩ := stops
        refine ⟨b, ?_, fails⟩
        have other : b ≠ w := by
          rintro rfl
          rw [last] at fails
          cases fails
        omega
      obtain ⟨top, count, fails, after⟩ := ih below
      refine ⟨top, ?_, fails, ?_⟩
      · rw [takeWhile_cons_of_pos last, length_cons]
        omega
      · intro b above under
        by_cases same : b = w
        · rw [same, last]
        · exact after b above (by omega)
    · refine ⟨w, ?_, by simpa using last, fun b above under => by omega⟩
      rw [takeWhile_cons_of_neg last, length_nil]
      omega

theorem topBit_spec (bits : BitVec 32) (nonzero : bits ≠ 0) :
    topBit bits < 32 ∧ bits.getLsbD (topBit bits) = true ∧
      ∀ b, topBit bits < b → bits.getLsbD b = false := by
  have stops : ∃ b < 32, (!bits.getLsbD b) = false := by
    by_contra none
    apply nonzero
    apply BitVec.eq_of_getLsbD_eq
    intro b below
    by_contra bit
    exact none ⟨b, below, by simpa using bit⟩
  obtain ⟨top, count, set, after⟩ := takeWhile_reverse_range (fun b => !bits.getLsbD b) 32 stops
  have position : topBit bits = top := by
    have flip : ∀ n < 32, n ^^^ 31 = 31 - n := by decide
    unfold topBit bitClz
    rw [toNat_ofNat, flip _ (by omega)]
    omega
  rw [position]
  refine ⟨by omega, by simpa using set, ?_⟩
  intro b above
  by_cases below : b < 32
  · simpa using after b above below
  · exact BitVec.getLsbD_of_ge bits b (by omega)

def wordOf (i : Nat) : Fin 8 := ⟨i / 32 % 8, Nat.mod_lt _ (by decide)⟩

namespace AiaRegfile
variable (file : AiaRegfile)

def Live (i : Nat) : Prop := i < 256 ∧ (file.word (wordOf i)).getLsbD (i % 32) = true

def Deliverable (i : Nat) : Prop :=
  file.eidelivery = 1 ∧ 1 ≤ i ∧ file.Live i ∧
    (file.eithreshold = 0 ∨ i < file.eithreshold.toNat)

/-- What reading the file must report: the smallest deliverable identity, or 0. -/
def Top (irq : Nat) : Prop :=
  IsLeast {i | file.Deliverable i} irq ∨ (irq = 0 ∧ ∀ i, ¬ file.Deliverable i)

def clear (i : Nat) : AiaRegfile :=
  file.setEip (wordOf i) (file.eip (wordOf i) &&& ~~~ (1#32 <<< (i % 32)))

/-- What the scan looks at: the highest live identity of a word, if it is also below the
threshold by more than one. -/
def Seen (i : Nat) : Prop :=
  file.Live i ∧ (∀ j, file.Live j → j / 32 = i / 32 → j ≤ i) ∧
    (file.eithreshold = 0 ∨ i + 1 < file.eithreshold.toNat)

variable {file}

theorem Seen.deliverable {i : Nat} (seen : file.Seen i) (on : file.eidelivery = 1) (named : i ≠ 0) :
    file.Deliverable i := by
  refine ⟨on, by omega, seen.1, ?_⟩
  rcases seen.2.2 with off | below
  · exact .inl off
  · exact .inr (by omega)

def lead (file : AiaRegfile) (i : Fin 8) : Nat := 32 * i.val + topBit (file.word i)

def hits (file : AiaRegfile) (i : Fin 8) : Bool :=
  file.word i != 0 && decide (ofNat 32 (file.lead i) < file.thresh)

theorem live_iff (i : Fin 8) {b : Nat} (below : b < 32) :
    file.Live (32 * i.val + b) ↔ (file.word i).getLsbD b = true := by
  have word : wordOf (32 * i.val + b) = i := by
    apply Fin.ext
    show (32 * i.val + b) / 32 % 8 = i.val
    omega
  unfold Live
  rw [word, show (32 * i.val + b) % 32 = b by omega]
  exact and_iff_right (by omega)

variable {n : Nat}

theorem Live.split (live : file.Live n) : n = 32 * (wordOf n).val + n % 32 := by
  have inRange := live.1
  show n = 32 * (n / 32 % 8) + n % 32
  omega

theorem Live.nonzero (live : file.Live n) : file.word (wordOf n) ≠ 0 := by
  intro zero
  have bit := live.2
  rw [zero] at bit
  exact absurd bit (by simp)

variable {i : Fin 8}

theorem lead_live (nonzero : file.word i ≠ 0) : file.Live (file.lead i) := by
  obtain ⟨below, set, -⟩ := topBit_spec _ nonzero
  exact (live_iff i below).mpr set

theorem lead_word (nonzero : file.word i ≠ 0) : file.lead i / 32 = i.val := by
  obtain ⟨below, -, -⟩ := topBit_spec _ nonzero
  unfold lead
  omega

theorem Live.le_lead (live : file.Live n) : n ≤ file.lead (wordOf n) := by
  obtain ⟨-, -, above⟩ := topBit_spec _ live.nonzero
  have split := live.split
  by_contra beyond
  have bit := above (n % 32) (by unfold lead at beyond; omega)
  rw [live.2] at bit
  cases bit

theorem below_thresh_iff (small : n < 256) :
    ofNat 32 n < file.thresh ↔ file.eithreshold = 0 ∨ n + 1 < file.eithreshold.toNat := by
  have zero : file.eithreshold = 0 ↔ file.eithreshold.toNat = 0 := by
    rw [← BitVec.toNat_inj]
    exact Iff.rfl
  unfold thresh
  rw [BitVec.lt_def, zero, toNat_ofNat, BitVec.toNat_sub, show BitVec.toNat (1 : BitVec 32) = 1 from rfl]
  omega

theorem hits_word (nonzero : file.word i ≠ 0) :
    file.hits i = decide (ofNat 32 (file.lead i) < file.thresh) := by
  unfold hits
  rw [bne_iff_ne.mpr nonzero, Bool.true_and]

theorem hits_iff (i : Fin 8) : file.hits i = true ↔ file.word i ≠ 0 ∧ file.Seen (file.lead i) := by
  unfold hits
  rw [Bool.and_eq_true, bne_iff_ne, decide_eq_true_iff]
  refine and_congr_right fun nonzero => ?_
  have live := lead_live nonzero
  rw [below_thresh_iff live.1]
  refine ⟨fun below => ⟨live, ?_, below⟩, fun seen => seen.2.2⟩
  intro j other same
  have word : wordOf j = i := by
    apply Fin.ext
    show j / 32 % 8 = i.val
    rw [same, lead_word nonzero]
    exact Nat.mod_eq_of_lt i.isLt
  exact word ▸ other.le_lead

theorem Seen.lead (seen : file.Seen n) : file.lead (wordOf n) = n := by
  have live := seen.1
  apply le_antisymm
  · refine seen.2.1 _ (lead_live live.nonzero) ?_
    rw [lead_word live.nonzero]
    have small := live.1
    show n / 32 % 8 = n / 32
    omega
  · exact live.le_lead

theorem Seen.hits (seen : file.Seen n) : file.hits (wordOf n) = true := by
  rw [hits_iff, seen.lead]
  exact ⟨seen.1.nonzero, seen⟩

theorem word_clear (n : Nat) (i : Fin 8) :
    (file.clear n).word i =
      if i = wordOf n then file.word i &&& ~~~ (1#32 <<< (n % 32)) else file.word i := by
  show update file.eip (wordOf n) _ i &&& file.eie i = _
  by_cases same : i = wordOf n
  · subst same
    rw [if_pos rfl, Function.update_self, word, BitVec.and_assoc, BitVec.and_assoc,
      BitVec.and_comm (~~~ _) _]
  · rw [if_neg same, update_of_ne same, word]

theorem live_clear (small : n < 256) (j : Nat) :
    (file.clear n).Live j ↔ file.Live j ∧ j ≠ n := by
  unfold Live
  rw [word_clear, and_assoc]
  refine and_congr_right fun below => ?_
  by_cases same : wordOf j = wordOf n
  · have words : j / 32 % 8 = n / 32 % 8 := congrArg Fin.val same
    have bit : (1#32 <<< (n % 32)).getLsbD (j % 32) = decide (n % 32 = j % 32) := by
      show (BitVec.twoPow 32 (n % 32)).getLsbD (j % 32) = _
      rw [BitVec.getLsbD_twoPow, decide_eq_true (by omega), Bool.true_and]
    rw [if_pos same, getLsbD_and, BitVec.getLsbD_not, bit, decide_eq_true (by omega), Bool.true_and,
      Bool.and_eq_true]
    refine and_congr_right fun _ => ?_
    rw [Bool.not_eq_true', decide_eq_false_iff_not]
    omega
  · rw [if_neg same]
    refine (and_iff_left ?_).symm
    rintro rfl
    exact same rfl

theorem lead_split (nonzero : file.word i ≠ 0) :
    wordOf (file.lead i) = i ∧ file.lead i % 32 = topBit (file.word i) := by
  obtain ⟨below, -, -⟩ := topBit_spec _ nonzero
  unfold lead
  refine ⟨Fin.ext ?_, by omega⟩
  show (32 * i.val + topBit (file.word i)) / 32 % 8 = i.val
  omega

theorem clear_lead (nonzero : file.word i ≠ 0) :
    file.clear (file.lead i) = file.setEip i (file.eip i &&& ~~~ (1#32 <<< topBit (file.word i))) := by
  obtain ⟨word, bit⟩ := lead_split nonzero
  unfold clear
  rw [word, bit]

end AiaRegfile

section Scan
variable (smode : Bool)

/-- Once an interrupt has been found, the rest of the scan only asks whether another word has a
live identity. -/
theorem aiaScan_found (claim : Bool) (file : AiaRegfile) (words : List (Fin 8)) {ret : BitVec 32}
    (found : ret ≠ 0) (vm : Hart δ) :
    aiaScan smode true claim file words ret vm =
      (ret, if words.any (fun i => file.word i != 0) then riscvInterrupt vm (externalIrq smode) else vm) := by
  induction words with
  | nil => rfl
  | cons i rest ih =>
    unfold aiaScan
    by_cases empty : file.word i = 0
    · rw [if_pos empty, ih]
      simp [empty]
    · rw [if_neg empty, if_pos found, any_cons, bne_iff_ne.mpr empty, Bool.true_or, if_pos rfl]

theorem aiaScan_miss (claim : Bool) {file : AiaRegfile} {i : Fin 8} (miss : file.hits i = false)
    (rest : List (Fin 8)) (vm : Hart δ) :
    aiaScan smode true claim file (i :: rest) 0 vm = aiaScan smode true claim file rest 0 vm := by
  by_cases empty : file.word i = 0
  · rw [aiaScan, if_pos empty]
  · rw [AiaRegfile.hits_word empty, decide_eq_false_iff_not] at miss
    rw [aiaScan, if_neg empty]
    exact if_neg miss

theorem aiaScan_hit (claim : Bool) {file : AiaRegfile} {i : Fin 8} (hit : file.hits i = true)
    (rest : List (Fin 8)) (vm : Hart δ) :
    let next := if claim then file.clear (file.lead i) else file
    let mid := if claim then vm.setAia smode next else vm
    aiaScan smode true claim file (i :: rest) 0 vm =
      if next.word i ≠ 0 then (ofNat 32 (file.lead i), riscvInterrupt mid (externalIrq smode))
      else aiaScan smode true claim next rest (ofNat 32 (file.lead i)) mid := by
  have nonzero := ((AiaRegfile.hits_iff i).mp hit).1
  have below := hit
  rw [AiaRegfile.hits_word nonzero, decide_eq_true_iff] at below
  have left : (if claim then file.word i &&& ~~~ (1#32 <<< topBit (file.word i)) else file.word i) =
      (if claim then file.clear (file.lead i) else file).word i := by
    cases claim with
    | false => rfl
    | true =>
      obtain ⟨word, bit⟩ := AiaRegfile.lead_split nonzero
      rw [if_pos rfl, if_pos rfl, AiaRegfile.word_clear, word, bit, if_pos rfl]
  intro next mid
  rw [aiaScan, if_neg nonzero]
  refine (if_pos below).trans ?_
  rw [left, ← AiaRegfile.clear_lead nonzero]
  rfl

section
variable (file : AiaRegfile) (words : List (Fin 8)) (vm : Hart δ)

theorem aiaScan_read :
    aiaScan smode true false file words 0 vm =
      match words.find? file.hits with
      | some i => (ofNat 32 (file.lead i), riscvInterrupt vm (externalIrq smode))
      | none => (0, vm) := by
  induction words with
  | nil => rfl
  | cons i rest ih =>
    cases tested : file.hits i with
    | false => rw [aiaScan_miss smode false tested, find?_cons, tested, ih]
    | true =>
      have nonzero := ((AiaRegfile.hits_iff i).mp tested).1
      rw [find?_cons, tested]
      exact (aiaScan_hit smode false tested rest vm).trans (if_pos nonzero)

/-- A claim takes the lead of the first word that passes the test. -/
theorem aiaScan_claim (named : ∀ i ∈ words, file.hits i = true → file.lead i ≠ 0) :
    ((∀ i ∈ words, file.hits i = false) ∧ aiaScan smode true true file words 0 vm = (0, vm)) ∨
      ∃ before i after, words = before ++ i :: after ∧ (∀ j ∈ before, file.hits j = false) ∧
        file.hits i = true ∧ aiaScan smode true true file words 0 vm =
          (ofNat 32 (file.lead i),
            if (i :: after).any (fun j => (file.clear (file.lead i)).word j != 0) then
              riscvInterrupt (vm.setAia smode (file.clear (file.lead i))) (externalIrq smode)
            else vm.setAia smode (file.clear (file.lead i))) := by
  induction words with
  | nil => exact .inl ⟨by simp, rfl⟩
  | cons i rest ih =>
    cases tested : file.hits i with
    | false =>
      have same := aiaScan_miss smode true tested rest vm
      rcases ih fun j member => named j (mem_cons_of_mem i member) with
        ⟨none, result⟩ | ⟨before, k, after, split, none, hit, result⟩
      · exact .inl ⟨forall_mem_cons.mpr ⟨tested, none⟩, same.trans result⟩
      · refine .inr ⟨i :: before, k, after, ?_, forall_mem_cons.mpr ⟨tested, none⟩, hit,
          same.trans result⟩
        rw [split, cons_append]
    | true =>
      refine .inr ⟨[], i, rest, rfl, by simp, tested, (aiaScan_hit smode true tested rest vm).trans ?_⟩
      have live := AiaRegfile.lead_live ((AiaRegfile.hits_iff i).mp tested).1
      have found : ofNat 32 (file.lead i) ≠ 0 := by
        intro zero
        have value := congrArg BitVec.toNat zero
        rw [toNat_ofNat, Nat.mod_eq_of_lt (lt_trans live.1 (by decide))] at value
        exact named i mem_cons_self tested value
      rw [if_pos rfl, if_pos rfl, any_cons]
      by_cases more : (file.clear (file.lead i)).word i = 0
      · rw [if_neg (not_not.mpr more), aiaScan_found smode true _ rest found, more]
        rfl
      · rw [if_pos more, bne_iff_ne.mpr more, Bool.true_or, if_pos rfl]

end

end Scan

theorem finRange_split {n : Nat} {before after : List (Fin n)} {i : Fin n}
    (split : finRange n = before ++ i :: after) :
    (∀ j, j < i → j ∈ before) ∧ ∀ j, j ∈ i :: after ↔ i ≤ j := by
  have sorted := pairwise_lt_finRange n
  rw [split, pairwise_append, pairwise_cons] at sorted
  obtain ⟨-, ⟨first, -⟩, apart⟩ := sorted
  have all (j : Fin n) : j ∈ before ∨ j ∈ i :: after := by
    rw [← mem_append, ← split]
    exact mem_finRange j
  have later (j : Fin n) (member : j ∈ i :: after) : i ≤ j := by
    rcases mem_cons.mp member with rfl | member
    · exact le_refl _
    · exact le_of_lt (first j member)
  refine ⟨fun j below => ?_, fun j => ⟨later j, fun above => ?_⟩⟩
  · exact (all j).resolve_right fun member => absurd (later j member) (not_le.mpr below)
  · exact (all j).resolve_left fun member => absurd (apart j member i mem_cons_self) (not_lt.mpr above)

namespace AiaRegfile
variable {file : AiaRegfile}

theorem isLeast_seen {before after : List (Fin 8)} {i : Fin 8}
    (split : finRange 8 = before ++ i :: after) (missed : ∀ j ∈ before, file.hits j = false)
    (hit : file.hits i = true) : IsLeast {n | file.Seen n} (file.lead i) := by
  obtain ⟨nonzero, seen⟩ := (hits_iff i).mp hit
  refine ⟨seen, ?_⟩
  intro n other
  have notBefore : ¬ wordOf n < i := by
    intro below
    have miss := missed _ ((finRange_split split).1 _ below)
    rw [Seen.hits other] at miss
    cases miss
  rcases eq_or_lt_of_le (not_lt.mp notBefore) with same | above
  · rw [same, Seen.lead other]
  · have own := lead_word nonzero
    have split := other.1.split
    omega

theorem unseen (missed : ∀ i ∈ finRange 8, file.hits i = false) (n : Nat) : ¬ file.Seen n := by
  intro seen
  have miss := missed _ (mem_finRange (wordOf n))
  rw [seen.hits] at miss
  cases miss

theorem toNat_lead {i : Fin 8} (hit : file.hits i = true) :
    (ofNat 32 (file.lead i)).toNat = file.lead i := by
  have live := lead_live ((hits_iff i).mp hit).1
  rw [toNat_ofNat, Nat.mod_eq_of_lt (lt_trans live.1 (by decide))]

theorem any_word_iff (words : List (Fin 8)) :
    words.any (fun i => file.word i != 0) = true ↔ ∃ n, file.Live n ∧ wordOf n ∈ words := by
  rw [any_eq_true]
  constructor
  · rintro ⟨i, member, nonzero⟩
    rw [bne_iff_ne] at nonzero
    exact ⟨file.lead i, lead_live nonzero, (lead_split nonzero).1.symm ▸ member⟩
  · rintro ⟨n, live, member⟩
    exact ⟨wordOf n, member, bne_iff_ne.mpr live.nonzero⟩

end AiaRegfile

/-! The hart around the file. -/

def Hart.aiaPending (vm : Hart δ) (smode : Bool) : Bool := vm.pendingIrqs.getLsbD (externalIrq smode)

section Hart
variable (vm : Hart δ) (smode : Bool)

theorem riscvInterrupt_aia (irq : Nat) : (riscvInterrupt vm irq).aia = vm.aia := by
  unfold riscvInterrupt
  split <;> rfl

theorem riscvInterrupt_aiaPending : (riscvInterrupt vm (externalIrq smode)).aiaPending smode = true := by
  have raised : (riscvInterrupt vm (externalIrq smode)).pendingIrqs =
      vm.pendingIrqs ||| irqMask (externalIrq smode) := by
    unfold riscvInterrupt
    split <;> rfl
  unfold Hart.aiaPending
  rw [raised]
  cases smode <;> simp [externalIrq, irqMask]

theorem riscvInterruptClear_aiaPending :
    (riscvInterruptClear vm (externalIrq smode)).aiaPending smode = false := by
  show (vm.pendingIrqs &&& ~~~ irqMask (externalIrq smode)).getLsbD (externalIrq smode) = false
  cases smode <;> simp [externalIrq, irqMask]

variable {vm} {files : Bool → AiaRegfile} (aia : vm.aia = some files)
include aia

theorem setAia_aia (file : AiaRegfile) :
    (vm.setAia smode file).aia = some (update files smode file) := by
  show vm.aia.map _ = _
  rw [aia]
  rfl

theorem riscvGetAiaIrq_off (off : (files smode).eidelivery = 0) (claim : Bool) :
    riscvGetAiaIrq vm smode claim = (0, riscvInterruptClear vm (externalIrq smode)) := by
  unfold riscvGetAiaIrq riscvUpdateAiaInternal
  rw [aia]
  exact if_neg (not_not.mpr off)

theorem riscvGetAiaIrq_on (on : (files smode).eidelivery ≠ 0) (claim : Bool) :
    riscvGetAiaIrq vm smode claim = aiaScan smode true claim (files smode) (finRange 8) 0
      (riscvInterruptClear vm (externalIrq smode)) := by
  unfold riscvGetAiaIrq riscvUpdateAiaInternal
  rw [aia]
  exact if_pos on

/-- Reading reports the smallest identity the scan looks at, and the pending bit says whether
there is one. -/
theorem riscvGetAiaIrq_read (on : (files smode).eidelivery ≠ 0) :
    let out := riscvGetAiaIrq vm smode false
    out.2.aia = some files ∧
      ((IsLeast {n | (files smode).Seen n} out.1.toNat ∧ out.2.aiaPending smode = true) ∨
        ((∀ n, ¬ (files smode).Seen n) ∧ out.1 = 0 ∧ out.2.aiaPending smode = false)) := by
  intro out
  have result : out = _ := riscvGetAiaIrq_on smode aia on false
  rw [aiaScan_read] at result
  cases found : (finRange 8).find? (files smode).hits with
  | none =>
    rw [found] at result
    rw [result]
    refine ⟨aia, .inr ⟨AiaRegfile.unseen ?_, rfl, riscvInterruptClear_aiaPending vm smode⟩⟩
    intro i member
    simpa using find?_eq_none.mp found i member
  | some i =>
    rw [found] at result
    obtain ⟨hit, before, after, split, missed⟩ := find?_eq_some_iff_append.mp found
    rw [result]
    refine ⟨(riscvInterrupt_aia _ _).trans aia, .inl ⟨?_, riscvInterrupt_aiaPending _ smode⟩⟩
    rw [AiaRegfile.toNat_lead hit]
    exact AiaRegfile.isLeast_seen split (fun j member => by simpa using missed j member) hit

omit aia in
theorem interruptIf_aiaPending (raise : Bool) (idle : vm.aiaPending smode = false) :
    (if raise then riscvInterrupt vm (externalIrq smode) else vm).aiaPending smode = raise := by
  cases raise with
  | false => exact idle
  | true => exact riscvInterrupt_aiaPending vm smode

omit aia in
theorem interruptIf_aia (raise : Bool) (irq : Nat) :
    (if raise then riscvInterrupt vm irq else vm).aia = vm.aia := by
  cases raise with
  | false => rfl
  | true => exact riscvInterrupt_aia vm irq

/-- Claiming also clears the identity, and the pending bit says whether its word or a later one
still has a live identity, deliverable or not. -/
theorem riscvGetAiaIrq_claim (on : (files smode).eidelivery ≠ 0) (zero : ¬ (files smode).Seen 0) :
    let out := riscvGetAiaIrq vm smode true
    (∃ n, IsLeast {n | (files smode).Seen n} n ∧ out.1.toNat = n ∧
      out.2.aia = some (update files smode ((files smode).clear n)) ∧
        (out.2.aiaPending smode = true ↔ ∃ j, ((files smode).clear n).Live j ∧ n / 32 ≤ j / 32)) ∨
      ((∀ n, ¬ (files smode).Seen n) ∧ out.1 = 0 ∧ out.2.aia = some files ∧
        out.2.aiaPending smode = false) := by
  intro out
  have result : out = _ := riscvGetAiaIrq_on smode aia on true
  have named (i : Fin 8) (_ : i ∈ finRange 8) (hit : (files smode).hits i = true) :
      (files smode).lead i ≠ 0 := by
    intro first
    exact zero (first ▸ ((AiaRegfile.hits_iff i).mp hit).2)
  rcases aiaScan_claim smode (files smode) (finRange 8)
      (riscvInterruptClear vm (externalIrq smode)) named with
    ⟨missed, scan⟩ | ⟨before, i, after, split, missed, hit, scan⟩
  · rw [result, scan]
    exact .inr ⟨AiaRegfile.unseen missed, rfl, aia, riscvInterruptClear_aiaPending vm smode⟩
  · obtain ⟨nonzero, seen⟩ := (AiaRegfile.hits_iff i).mp hit
    rw [result, scan]
    refine .inl ⟨_, AiaRegfile.isLeast_seen split missed hit, AiaRegfile.toNat_lead hit, ?_, ?_⟩
    · rw [interruptIf_aia]
      exact setAia_aia smode aia _
    · have idle : ((riscvInterruptClear vm (externalIrq smode)).setAia smode
          ((files smode).clear ((files smode).lead i))).aiaPending smode = false :=
        riscvInterruptClear_aiaPending vm smode
      rw [interruptIf_aiaPending smode _ idle, AiaRegfile.any_word_iff]
      refine exists_congr fun j => and_congr_right fun live => ?_
      have small := live.1
      rw [(finRange_split split).2, AiaRegfile.lead_word nonzero]
      show i.val ≤ j / 32 % 8 ↔ _
      rw [Nat.mod_eq_of_lt (by omega)]

/-- If the scan looks at identity 0, a claim clears its bit, whatever else it does. -/
theorem riscvGetAiaIrq_claim_zero (on : (files smode).eidelivery ≠ 0) (zero : (files smode).Seen 0) :
    let out := riscvGetAiaIrq vm smode true
    ∃ file, out.2.aia = some (update files smode file) ∧ (file.eip 0).getLsbD 0 = false ∧
      (out.1 = 0 ∨ wordOf out.1.toNat ≠ 0) := by
  intro out
  have first : (files smode).lead 0 = 0 := zero.lead
  have cleared : (((files smode).clear 0).eip 0).getLsbD 0 = false := by
    have value : ((files smode).clear 0).eip 0 = (files smode).eip 0 &&& ~~~ (1#32 <<< 0) := rfl
    rw [value, getLsbD_and]
    exact Bool.and_false _
  have empty : ((files smode).clear 0).word 0 = 0 := by
    by_contra nonzero
    have live := AiaRegfile.lead_live nonzero
    have word := AiaRegfile.lead_word nonzero
    rw [AiaRegfile.live_clear (by decide)] at live
    exact live.2 (Nat.le_zero.mp (zero.2.1 _ live.1 word))
  have result : out = aiaScan smode true true ((files smode).clear 0) (finRange 8).tail 0
      ((riscvInterruptClear vm (externalIrq smode)).setAia smode ((files smode).clear 0)) := by
    have step := aiaScan_hit smode true zero.hits (finRange 8).tail
      (riscvInterruptClear vm (externalIrq smode))
    rw [show wordOf 0 = 0 from rfl, first] at step
    exact (riscvGetAiaIrq_on smode aia on true).trans (step.trans (if_neg (not_not.mpr empty)))
  have later (i : Fin 8) (member : i ∈ (finRange 8).tail) : i ≠ 0 := by
    rintro rfl
    exact absurd member (by decide)
  have named (i : Fin 8) (member : i ∈ (finRange 8).tail)
      (hit : ((files smode).clear 0).hits i = true) : ((files smode).clear 0).lead i ≠ 0 := by
    intro same
    have word := AiaRegfile.lead_word ((AiaRegfile.hits_iff i).mp hit).1
    rw [same] at word
    exact later i member (Fin.ext word.symm)
  have quieted : (riscvInterruptClear vm (externalIrq smode)).aia = some files := aia
  have settled := setAia_aia smode quieted ((files smode).clear 0)
  rcases aiaScan_claim smode ((files smode).clear 0) (finRange 8).tail _ named with
    ⟨missed, scan⟩ | ⟨before, i, after, split, missed, hit, scan⟩
  · rw [result, scan]
    exact ⟨_, settled, cleared, .inl rfl⟩
  · have nonzero := ((AiaRegfile.hits_iff i).mp hit).1
    have word := (AiaRegfile.lead_split nonzero).1
    have other : i ≠ 0 := later i (split ▸ mem_append_right _ mem_cons_self)
    rw [result, scan]
    refine ⟨((files smode).clear 0).clear (((files smode).clear 0).lead i), ?_, ?_, .inr ?_⟩
    · rw [interruptIf_aia, setAia_aia smode settled, Function.update_idem]
    · show (update ((files smode).clear 0).eip (wordOf _) _ 0).getLsbD 0 = false
      rw [word, update_of_ne other.symm]
      exact cleared
    · rw [AiaRegfile.toNat_lead hit, word]
      exact other

end Hart

end Rvvm
