import Rvvm.Cpu.AiaCorrect

/-! Retention of message-signalled interrupts: a message is recorded in its interrupt file, stays
there until it is claimed or cleared, and is signalled when delivery is switched on. -/
namespace Rvvm
open BitVec Runs
open BitVec (ofNat)
open Function (update update_self)

variable {δ : Type}

/-- The operation leaves the bit of a register clear that was set. -/
def CsrOp.clears (op : CsrOp) (dest : BitVec 64) (bit : Nat) : Bool :=
  match op with
  | swap => !dest.getLsbD bit
  | setbits => false
  | clearbits => dest.getLsbD bit

/-- The access to a word of pending bits, on RV64 to two, clears the one of the identity. -/
def ClearsEip (rv64 : Bool) (reg : Nat) (dest : BitVec 64) (op : CsrOp) (i : Nat) : Prop :=
  if rv64 then reg = 2 * (i / 64) ∧ op.clears dest (i % 64) = true
  else reg = i / 32 ∧ op.clears dest (i % 32) = true

/-! The pending bits under each operation on the file. -/

namespace AiaRegfile
variable {file : AiaRegfile}

theorem pending_clear {n i : Nat} (small : n < 256) (below : i < 256) :
    (file.clear n).pending i = (file.pending i && decide (i ≠ n)) := by
  show (update file.eip (wordOf n) _ (wordOf i)).getLsbD (i % 32) = _
  by_cases same : wordOf i = wordOf n
  · rw [same, update_self, getLsbD_and, getLsbD_not, getLsbD_bit small below same,
      decide_eq_true (by omega), Bool.true_and, ← decide_not, ← same]
    rfl
  · have other : i ≠ n := by
      rintro rfl
      exact same rfl
    rw [Function.update_of_ne same, decide_eq_true other, Bool.and_true]
    rfl

theorem write_eip_pending (k : Fin 8) (dest : BitVec 64) (op : CsrOp) {i : Nat} (set : file.pending i = true)
    (spared : wordOf i = k → op.clears dest (i % 32) = false) : (file.write (.eip k) dest op).pending i = true := by
  show (update file.eip k _ (wordOf i)).getLsbD (i % 32) = true
  by_cases own : wordOf i = k
  · have spared := spared own
    have low : i % 32 < 32 := Nat.mod_lt _ (by decide)
    have set : (file.eip (wordOf i)).getLsbD (i % 32) = true := set
    rw [← own, update_self]
    show (riscvCsrAtomicHelper (file.eip (wordOf i)) dest op).1.getLsbD (i % 32) = true
    cases op with
    | swap =>
      rw [CsrOp.clears, Bool.not_eq_false'] at spared
      simp [riscvCsrAtomicHelper, low, spared]
    | setbits =>
      dsimp only [riscvCsrAtomicHelper]
      split <;> simp [set]
    | clearbits =>
      have spared : dest.getLsbD (i % 32) = false := spared
      dsimp only [riscvCsrAtomicHelper]
      split <;> simp [set, low, spared]
  · rw [Function.update_of_ne own]
    exact set

theorem writePair_eip_pending {rv64 : Bool} {reg : Nat} {dest : BitVec 64} {op : CsrOp} {file' : AiaRegfile}
    (written : file.writePair rv64 reg .eip dest op = some file') {i : Nat} (small : i < 256)
    (set : file.pending i = true) (spared : ¬ ClearsEip rv64 reg dest op i) : file'.pending i = true := by
  have word : (wordOf i).val = i / 32 := Nat.mod_eq_of_lt (by omega)
  unfold writePair at written
  split at written
  · cases written
  next even =>
    split at written
    next inRange =>
      split at written
      · cases written
        have low : (file.write (.eip ⟨reg, inRange⟩) dest op).pending i = true := by
          refine write_eip_pending _ dest op set fun own => ?_
          have here : i / 32 = reg := word.symm.trans (congrArg Fin.val own)
          cases rv64 with
          | false => exact Bool.eq_false_iff.mpr fun clears => spared ⟨here.symm, clears⟩
          | true =>
            have bit : i % 64 = i % 32 := by
              simp at even
              omega
            exact Bool.eq_false_iff.mpr fun clears => spared ⟨by omega, bit ▸ clears⟩
        split
        next next =>
          refine write_eip_pending _ _ op low fun own => ?_
          obtain rfl := next.1
          have here : i / 32 = reg + 1 := word.symm.trans (congrArg Fin.val own)
          have bit : 32 + i % 32 = i % 64 := by
            simp at even
            omega
          have shifted : op.clears (dest >>> 32) (i % 32) = op.clears dest (i % 64) := by
            cases op <;> simp [CsrOp.clears, bit]
          rw [shifted]
          exact Bool.eq_false_iff.mpr fun clears => spared ⟨by omega, clears⟩
        · exact low
      · cases written
    · cases written

theorem writePair_eie_pending {rv64 : Bool} {reg : Nat} {dest : BitVec 64} {op : CsrOp} {file' : AiaRegfile}
    (written : file.writePair rv64 reg .eie dest op = some file') (i : Nat) :
    file'.pending i = file.pending i := by
  unfold writePair at written
  split at written
  · cases written
  split at written
  · split at written
    · cases written
      split <;> rfl
    · cases written
  · cases written

theorem access_pending {rv64 : Bool} {csri : Nat} {dest : BitVec 64} {op : CsrOp} {file' : AiaRegfile}
    (written : file.access rv64 csri dest op = some file') (other : ¬ (0x80 ≤ csri ∧ csri ≤ 0xBF)) (i : Nat) :
    file'.pending i = file.pending i := by
  unfold access at written
  split at written
  · split at written
    · cases written
      rfl
    · cases written
  split at written
  · split at written
    · cases written
      rfl
    · cases written
  split at written
  · cases written
  split at written
  · exact writePair_eie_pending written i
  · cases written

end AiaRegfile

def Hart.AiaHas (vm : Hart δ) (smode : Bool) (p : AiaRegfile → Prop) : Prop :=
  ∃ files, vm.aia = some files ∧ p (files smode)

theorem Hart.AiaHas.of_update {vm : Hart δ} {smode : Bool} {p : AiaRegfile → Prop} {files : Bool → AiaRegfile}
    {file : AiaRegfile} (aia : vm.aia = some (update files smode file)) (holds : p file) :
    vm.AiaHas smode p := by
  refine ⟨_, aia, ?_⟩
  rw [update_self]
  exact holds

section Scan
variable {smode : Bool} {i : Nat}

theorem aiaScan_keeps (named : i ≠ 0) (small : i < 256) {words : List (Fin 8)} {file : AiaRegfile}
    {vm : Hart δ} {files : Bool → AiaRegfile} (aia : vm.aia = some files) (own : files smode = file)
    (set : file.pending i = true) (spared : (aiaScan smode true true file words 0 vm).1.toNat ≠ i) :
    (aiaScan smode true true file words 0 vm).2.AiaHas smode (·.pending i = true) := by
  induction words generalizing file vm files with
  | nil => exact ⟨files, aia, own ▸ set⟩
  | cons word rest ih =>
    cases tested : file.hits word with
    | false =>
      rw [aiaScan_miss smode true tested] at spared ⊢
      exact ih aia own set spared
    | true =>
      have claimed := setAia_aia smode aia (file.clear (file.lead word))
      have lead := AiaRegfile.lead_live ((AiaRegfile.hits_iff word).mp tested).1
      have kept (other : file.lead word ≠ i) : (file.clear (file.lead word)).pending i = true := by
        rw [AiaRegfile.pending_clear lead.1 small, set]
        exact decide_eq_true other.symm
      have has (other : file.lead word ≠ i) :
          (vm.setAia smode (file.clear (file.lead word))).AiaHas smode (·.pending i = true) :=
        .of_update claimed (kept other)
      have step := aiaScan_hit smode true tested rest vm
      rw [if_pos rfl] at step
      rw [step] at spared ⊢
      by_cases first : file.lead word = 0
      · -- identity 0 is no answer, and the scan goes on
        by_cases more : (file.clear (file.lead word)).word word = 0
        · rw [if_neg (not_not.mpr more), first] at spared ⊢
          rw [first] at claimed kept
          exact ih claimed (update_self _ _ _) (kept fun same => named same.symm) spared
        · rw [if_pos more]
          obtain ⟨after, aia', set'⟩ := has fun same => named (same.symm.trans first)
          exact ⟨after, (riscvInterrupt_aia _ _).trans aia', set'⟩
      · have found : ofNat 32 (file.lead word) ≠ 0 := by
          intro zero
          have value := congrArg BitVec.toNat zero
          rw [AiaRegfile.toNat_lead tested] at value
          exact first value
        rw [aiaScan_found smode true _ rest found] at spared ⊢
        by_cases more : (file.clear (file.lead word)).word word = 0
        · rw [if_neg (not_not.mpr more), AiaRegfile.toNat_lead tested] at spared
          rw [if_neg (not_not.mpr more)]
          obtain ⟨after, aia', set'⟩ := has spared
          exact ⟨after, (interruptIf_aia _ _).trans aia', set'⟩
        · rw [if_pos more, AiaRegfile.toNat_lead tested] at spared
          rw [if_pos more]
          obtain ⟨after, aia', set'⟩ := has spared
          exact ⟨after, (riscvInterrupt_aia _ _).trans aia', set'⟩

theorem riscvGetAiaIrq_keeps (named : i ≠ 0) (small : i < 256) {vm : Hart δ}
    (set : vm.AiaHas smode (·.pending i = true)) (claim : Bool)
    (spared : claim = true → (riscvGetAiaIrq vm smode true).1.toNat ≠ i) :
    (riscvGetAiaIrq vm smode claim).2.AiaHas smode (·.pending i = true) := by
  obtain ⟨files, aia, set⟩ := set
  by_cases off : (files smode).eidelivery = 0
  · rw [riscvGetAiaIrq_off smode aia off claim]
    exact ⟨files, aia, set⟩
  · cases claim with
    | false => exact ⟨files, (riscvGetAiaIrq_read smode aia off).1, set⟩
    | true =>
      have spared := spared rfl
      rw [riscvGetAiaIrq_on smode aia off true] at spared ⊢
      have quieted : (riscvInterruptClear vm (externalIrq smode)).aia = some files := aia
      exact aiaScan_keeps named small quieted rfl set spared

end Scan

section Retention
variable (priv : Priv) (i : Nat)

/-- The operation neither claims the identity nor clears it by a write to the pending bits. -/
def Spares (vm : Hart δ) : AiaOp → Prop
  | .send _ => True
  | .access csri dest op =>
    0x80 ≤ (csri.setWidth 32).toNat ∧ (csri.setWidth 32).toNat ≤ 0xBF →
      ¬ ClearsEip vm.rv64 ((csri.setWidth 32).toNat - 0x80) dest op i
  | .topei dest op => riscvIsCsrWrite dest op = true → (riscvGetAiaIrq vm (aiaMode priv) true).1.toNat ≠ i

variable {i}

theorem aiaStep_keeps (named : i ≠ 0) (small : i < 256) (vm : Hart δ) (op : AiaOp)
    (set : vm.AiaHas (aiaMode priv) (·.pending i = true)) (spared : Spares priv i vm op) :
    (aiaStep priv vm op).AiaHas (aiaMode priv) (·.pending i = true) := by
  obtain ⟨files, aia, bit⟩ := set
  cases op with
  | send irq =>
    show (riscvSendAiaIrq vm (aiaMode priv) irq).AiaHas _ _
    by_cases ignored : irq = 0 ∨ 256 ≤ irq.toNat ∨ (files (aiaMode priv)).eidelivery = 0
    · rw [riscvSendAiaIrq_ignored aia irq ignored]
      exact ⟨files, aia, bit⟩
    · have valid : irq.toNat < 256 := not_le.mp fun large => ignored (.inr (.inl large))
      have received := riscvSendAiaIrq_received aia irq (fun zero => ignored (.inl zero)) valid
        fun off => ignored (.inr (.inr off))
      refine .of_update received.1 ?_
      rw [AiaRegfile.pending_receive valid small, bit, Bool.true_or]
  | access csri dest op =>
    have accessed := riscvCsrIndirect_accessed (aiaMode priv) aia priv rfl csri dest op
    cases written : (files (aiaMode priv)).access vm.rv64 (csri.setWidth 32).toNat dest op with
    | none =>
      rw [written] at accessed
      exact ⟨files, accessed.1, bit⟩
    | some file =>
      rw [written] at accessed
      refine .of_update accessed.1 ?_
      by_cases own : 0x80 ≤ (csri.setWidth 32).toNat ∧ (csri.setWidth 32).toNat ≤ 0xBF
      · unfold AiaRegfile.access at written
        rw [if_neg (by omega), if_neg (by omega), if_neg (by omega), if_pos own] at written
        exact AiaRegfile.writePair_eip_pending written small bit (spared own)
      · rw [AiaRegfile.access_pending written own, bit]
  | topei dest op =>
    show (riscvCsrTopei vm priv dest op).vm.AiaHas _ _
    rw [riscvCsrTopei_vm priv aia]
    exact riscvGetAiaIrq_keeps named small ⟨files, aia, bit⟩ _ spared

/-- What becomes of a message: its bit is set, it stays set until the identity is claimed or
cleared, and a message that comes while delivery is off is signalled by the operation that switches
delivery on, if the identity is then enabled and below the threshold. -/
structure Retained (irq : BitVec 32) (vm : Hart δ) : Prop where
  recorded : (aiaStep priv vm (.send irq)).AiaHas (aiaMode priv) (·.pending irq.toNat = true)
  kept : ∀ ops, AllSteps (aiaStep priv) (Spares priv irq.toNat) (aiaStep priv vm (.send irq)) ops →
    ∀ later ∈ visited (aiaStep priv) (aiaStep priv vm (.send irq)) ops,
      later.AiaHas (aiaMode priv) (·.pending irq.toNat = true)
  signalled : vm.AiaHas (aiaMode priv) (·.eidelivery = 0) →
    ∀ ops op,
      AllSteps (aiaStep priv) (Spares priv irq.toNat) (aiaStep priv vm (.send irq)) (ops ++ [op]) →
      let before := final (aiaStep priv) (aiaStep priv vm (.send irq)) ops
      before.AiaHas (aiaMode priv) (·.eidelivery = 0) →
        (aiaStep priv before op).AiaHas (aiaMode priv) (fun file => file.eidelivery = 1 ∧
          file.enabled irq.toNat = true ∧ (file.eithreshold = 0 ∨ irq.toNat < file.eithreshold.toNat)) →
          (aiaStep priv before op).aiaPending (aiaMode priv) = true

theorem retained_on {vm : Hart δ} {files : Bool → AiaRegfile} (aia : vm.aia = some files) {irq : BitVec 32}
    (named : irq ≠ 0) (small : irq.toNat < 256) (on : (files (aiaMode priv)).eidelivery ≠ 0) :
    Retained priv irq vm := by
  have first : irq.toNat ≠ 0 := fun zero => named (eq_of_toNat_eq zero)
  have recorded : (aiaStep priv vm (.send irq)).AiaHas (aiaMode priv) (·.pending irq.toNat = true) := by
    refine .of_update (riscvSendAiaIrq_received aia irq named small on).1 ?_
    rw [AiaRegfile.pending_receive small small, decide_eq_true rfl, Bool.or_true]
  refine ⟨recorded, ?_, ?_⟩
  · intro ops spared
    exact invariant (aiaStep_keeps priv first small) recorded spared
  · rintro ⟨files', same, off⟩
    rw [aia] at same
    cases same
    exact absurd off on

/-! A run that switches delivery on without a signal: only the identity is left enabled, and the
threshold is put just above it. -/

def onlyEnabled (i : Nat) (j : Fin 8) : BitVec 32 := if j = wordOf i then 1#32 <<< (i % 32) else 0

theorem onlyEnabled_pair : ∀ (i : Fin 256) (m : Fin 4),
    let dest := if i.val / 64 = m.val then 1#64 <<< (i.val % 64) else 0
    dest.setWidth 32 = onlyEnabled i ⟨2 * m.val, by omega⟩ ∧
      (dest >>> 32).setWidth 32 = onlyEnabled i ⟨2 * m.val + 1, by omega⟩ := by
  decide +kernel

/-- The access that brings the enable bits of one word to `onlyEnabled`, on RV64 with those of its
neighbour. -/
def enableOnly (i : Nat) (rv64 : Bool) (k : Nat) : Nat × BitVec 64 :=
  if rv64 then (2 * (k / 2), if i / 64 = k / 2 then 1#64 <<< (i % 64) else 0)
  else (k, (if k = i / 32 then 1#32 <<< (i % 32) else 0).setWidth 64)

theorem riscvIsCsrWrite_swap (dest : BitVec 64) : riscvIsCsrWrite dest .swap = true := Bool.or_true _

theorem writePair_word (file : AiaRegfile) (dest : BitVec 64) (k : Fin 8) :
    file.writePair false k.val .eie dest .swap =
      some { file with eie := update file.eie k (dest.setWidth 32) } := by
  unfold AiaRegfile.writePair
  rw [dif_pos k.isLt, if_pos (riscvIsCsrWrite_swap dest)]
  rfl

theorem writePair_pair (file : AiaRegfile) (dest : BitVec 64) {k : Nat} (even : 2 * k < 8) (odd : 2 * k + 1 < 8) :
    file.writePair true (2 * k) .eie dest .swap =
      some { file with
        eie := update (update file.eie ⟨2 * k, even⟩ (dest.setWidth 32))
          ⟨2 * k + 1, odd⟩ ((dest >>> 32).setWidth 32) } := by
  unfold AiaRegfile.writePair
  rw [if_neg (by simp), dif_pos even, if_pos (riscvIsCsrWrite_swap dest)]
  dsimp only
  rw [dif_pos ⟨rfl, odd⟩]
  rfl

theorem writePair_enableOnly (small : i < 256) (file : AiaRegfile) (rv64 : Bool) (k : Fin 8) :
    ∃ file', file.writePair rv64 (enableOnly i rv64 k).1 .eie (enableOnly i rv64 k).2 .swap = some file' ∧
      file'.eidelivery = file.eidelivery ∧ file'.eie k = onlyEnabled i k ∧
        ∀ j, file.eie j = onlyEnabled i j → file'.eie j = onlyEnabled i j := by
  have keeps {words : Fin 8 → BitVec 32} (own j : Fin 8) (only : words j = onlyEnabled i j) :
      update words own (onlyEnabled i own) j = onlyEnabled i j := by
    by_cases same : j = own
    · rw [same, update_self]
    · rw [Function.update_of_ne same, only]
  cases rv64 with
  | false =>
    have same : k = wordOf i ↔ k.val = i / 32 := by
      rw [Fin.ext_iff]
      show k.val = i / 32 % 8 ↔ _
      omega
    have value : (enableOnly i false k).2.setWidth 32 = onlyEnabled i k := by
      show setWidth 32 (setWidth 64 (if k.val = i / 32 then _ else _)) = if _ then _ else _
      rw [setWidth_setWidth_of_le _ (by decide)]
      exact if_congr same.symm rfl rfl
    refine ⟨_, writePair_word file _ k, rfl, ?_⟩
    rw [value]
    exact ⟨update_self _ _ _, keeps k⟩
  | true =>
    have even : 2 * (k.val / 2) < 8 := by omega
    have odd : 2 * (k.val / 2) + 1 < 8 := by omega
    obtain ⟨low, high⟩ := onlyEnabled_pair ⟨i, small⟩ ⟨k.val / 2, by omega⟩
    refine ⟨_, writePair_pair file _ even odd, rfl, ?_⟩
    rw [show (enableOnly i true k).2.setWidth 32 = onlyEnabled i ⟨2 * (k.val / 2), even⟩ from low,
      show ((enableOnly i true k).2 >>> 32).setWidth 32 = onlyEnabled i ⟨2 * (k.val / 2) + 1, odd⟩ from high]
    refine ⟨?_, fun j only => keeps _ j (keeps _ j only)⟩
    dsimp only
    by_cases upper : k = ⟨2 * (k.val / 2) + 1, odd⟩
    · rw [← upper, update_self]
    · have lower : k = ⟨2 * (k.val / 2), even⟩ := by
        rw [Fin.ext_iff] at upper ⊢
        dsimp only at upper ⊢
        omega
      refine keeps _ k ?_
      rw [← lower, update_self]

theorem aiaStep_access {vm : Hart δ} {files : Bool → AiaRegfile} (aia : vm.aia = some files)
    {csri dest : BitVec 64} {op : CsrOp} {file : AiaRegfile}
    (written : (files (aiaMode priv)).access vm.rv64 (csri.setWidth 32).toNat dest op = some file) :
    (aiaStep priv vm (.access csri dest op)).aia = some (update files (aiaMode priv) file) ∧
      ((aiaStep priv vm (.access csri dest op)).aiaPending (aiaMode priv) = true ↔ file.Raises) := by
  have accessed := riscvCsrIndirect_accessed (aiaMode priv) aia priv rfl csri dest op
  rw [written] at accessed
  exact accessed

theorem onlyEnabled_bit (small : i < 256) {n : Nat} (below : n < 256) :
    (onlyEnabled i (wordOf n)).getLsbD (n % 32) = decide (n = i) := by
  unfold onlyEnabled
  by_cases same : wordOf n = wordOf i
  · have words : n / 32 % 8 = i / 32 % 8 := congrArg Fin.val same
    rw [if_pos same]
    show (twoPow 32 (i % 32)).getLsbD (n % 32) = _
    rw [getLsbD_twoPow, decide_eq_true (by omega)]
    exact decide_eq_decide.mpr (by omega)
  · have other : n ≠ i := by
      rintro rfl
      exact same rfl
    rw [if_neg same, decide_eq_false other]
    exact getLsbD_zero

theorem not_raises_onlyEnabled (small : i < 256) {file : AiaRegfile} (only : file.eie = onlyEnabled i)
    (threshold : file.eithreshold = ofNat 32 (i + 1)) : ¬ file.Raises := by
  rintro ⟨-, n, live, -, below⟩
  have enabled := ((AiaRegfile.live_split n).mp live).2.2
  unfold AiaRegfile.enabled at enabled
  rw [only, onlyEnabled_bit small live.1, decide_eq_true_iff] at enabled
  have value : (ofNat 32 (i + 1)).toNat = i + 1 := by
    rw [toNat_ofNat]
    omega
  rw [threshold] at below
  rcases below with zero | below
  · have zero := congrArg BitVec.toNat zero
    rw [value] at zero
    cases zero
  · omega

theorem exists_unsignalled (small : i < 256) (left : Nat) (vm : Hart δ) (words : left ≤ 8)
    (off : vm.AiaHas (aiaMode priv) fun file =>
      file.eidelivery = 0 ∧ ∀ j : Fin 8, j.val + left < 8 → file.eie j = onlyEnabled i j) :
    ∃ ops op, AllSteps (aiaStep priv) (Spares priv i) vm (ops ++ [op]) ∧
      let before := final (aiaStep priv) vm ops
      before.AiaHas (aiaMode priv) (·.eidelivery = 0) ∧
        (aiaStep priv before op).AiaHas (aiaMode priv) (fun file => file.eidelivery = 1 ∧
          file.enabled i = true ∧ (file.eithreshold = 0 ∨ i < file.eithreshold.toNat)) ∧
          (aiaStep priv before op).aiaPending (aiaMode priv) = false := by
  obtain ⟨files, aia, off, only⟩ := off
  induction left generalizing vm files with
  | zero =>
    have enabled : (files (aiaMode priv)).eie = onlyEnabled i := funext fun j => only j j.isLt
    have value : (ofNat 64 (i + 1)).setWidth 32 = ofNat 32 (i + 1) := by
      apply eq_of_toNat_eq
      rw [toNat_setWidth, toNat_ofNat, toNat_ofNat]
      omega
    have bounded : (files (aiaMode priv)).access vm.rv64 ((0x72#64).setWidth 32).toNat
        (ofNat 64 (i + 1)) .swap =
          some { files (aiaMode priv) with eithreshold := ofNat 32 (i + 1) } := by
      rw [← value]
      exact if_pos (riscvIsCsrWrite_swap _)
    obtain ⟨first, -⟩ := aiaStep_access priv aia bounded
    have opened : (update files (aiaMode priv)
        { files (aiaMode priv) with eithreshold := ofNat 32 (i + 1) } (aiaMode priv)).access
          (aiaStep priv vm (.access 0x72 (ofNat 64 (i + 1)) .swap)).rv64
            ((0x70#64).setWidth 32).toNat 1 .swap =
            some { files (aiaMode priv) with eithreshold := ofNat 32 (i + 1), eidelivery := 1 } := by
      rw [update_self]
      rfl
    obtain ⟨second, pending⟩ := aiaStep_access priv first opened
    refine ⟨[.access 0x72 (ofNat 64 (i + 1)) .swap], .access 0x70 1 .swap, ⟨?_, ?_, trivial⟩,
      .of_update first off, .of_update second ⟨rfl, ?_, ?_⟩, ?_⟩
    · exact nofun
    · exact nofun
    · show ((files (aiaMode priv)).eie (wordOf i)).getLsbD (i % 32) = true
      rw [enabled, onlyEnabled_bit small small, decide_eq_true rfl]
    · refine .inr ?_
      rw [toNat_ofNat]
      omega
    · rw [Bool.eq_false_iff]
      intro raised
      refine not_raises_onlyEnabled small ?_ ?_ (pending.mp raised)
      · exact enabled
      · rfl
  | succ left ih =>
    have inRange : 7 - left < 8 := by omega
    obtain ⟨file, written, delivery, own, kept⟩ :=
      writePair_enableOnly small (files (aiaMode priv)) vm.rv64 ⟨7 - left, inRange⟩
    have reg : (enableOnly i vm.rv64 (7 - left)).1 < 8 := by
      unfold enableOnly
      split
      · omega
      · exact inRange
    have csri : ((ofNat 64 (0xC0 + (enableOnly i vm.rv64 (7 - left)).1)).setWidth 32).toNat =
        0xC0 + (enableOnly i vm.rv64 (7 - left)).1 := by
      rw [toNat_setWidth, toNat_ofNat]
      omega
    have accessed : (files (aiaMode priv)).access vm.rv64
        ((ofNat 64 (0xC0 + (enableOnly i vm.rv64 (7 - left)).1)).setWidth 32).toNat
          (enableOnly i vm.rv64 (7 - left)).2 .swap = some file := by
      rw [csri, ← written]
      unfold AiaRegfile.access
      rw [if_neg (by omega), if_neg (by omega), if_neg (by omega), if_neg (by omega), if_pos (by omega),
        Nat.add_sub_cancel_left]
    obtain ⟨aia', -⟩ := aiaStep_access priv aia accessed
    have off' : (update files (aiaMode priv) file (aiaMode priv)).eidelivery = 0 := by
      rw [update_self, delivery]
      exact off
    have only' (j : Fin 8) (below : j.val + left < 8) :
        (update files (aiaMode priv) file (aiaMode priv)).eie j = onlyEnabled i j := by
      rw [update_self]
      by_cases next : j = ⟨7 - left, inRange⟩
      · rw [next, own]
      · refine kept j (only j ?_)
        rw [Fin.ext_iff] at next
        dsimp only at next
        omega
    obtain ⟨ops, op, spared, rest⟩ := ih _ (by omega) _ aia' off' only'
    refine ⟨_ :: ops, op, ⟨?_, spared⟩, rest⟩
    intro eip
    omega

/-- A message is retained exactly when it comes while delivery is on. -/
theorem message_retained_iff (vm : Hart δ) (files : Bool → AiaRegfile) (aia : vm.aia = some files)
    (irq : BitVec 32) (named : irq ≠ 0) (small : irq.toNat < 256) :
    Retained priv irq vm ↔ (files (aiaMode priv)).eidelivery ≠ 0 := by
  constructor
  · intro retained off
    have dropped : aiaStep priv vm (.send irq) = vm :=
      riscvSendAiaIrq_ignored aia irq (.inr (.inr off))
    obtain ⟨ops, op, spared, before, after, silent⟩ :=
      exists_unsignalled priv small 8 vm (le_refl 8) ⟨files, aia, off, fun j below => by omega⟩
    have raised := retained.signalled ⟨files, aia, off⟩ ops op
    rw [dropped] at raised
    have raised := raised spared before after
    rw [silent] at raised
    cases raised
  · exact retained_on priv aia named small

end Retention

theorem message_retained_iff_one :
    imsicHart.aia.isSome = true ∧ (1 : BitVec 32) ≠ 0 ∧ (1 : BitVec 32).toNat < 256 ∧
      (Retained .supervisor 1 imsicHart ↔ (⟨0, 0, fun _ => 0, fun _ => 0⟩ : AiaRegfile).eidelivery ≠ 0) :=
  ⟨rfl, by decide, by decide, message_retained_iff .supervisor imsicHart _ rfl 1 (by decide) (by decide)⟩

/-- Identity 1 is enabled, the message comes while delivery is off, and delivery is switched on:
the bit was never set, and nothing is signalled. -/
theorem message_dropped :
    let enabled := aiaStep .supervisor imsicHart (.access 0xC0 2 .swap)
    let sent := aiaStep .supervisor enabled (.send 1)
    let opened := aiaStep .supervisor sent (.access 0x70 1 .swap)
    sent.aia.map (fun files => (files true).pending 1) = some false ∧
      opened.aia.map (fun files => ((files true).eidelivery, (files true).enabled 1, (files true).pending 1)) =
        some (1, true, false) ∧
        opened.aiaPending true = false ∧ ¬ Retained .supervisor 1 enabled := by
  intro enabled sent opened
  have unset : sent.aia.map (fun files => (files true).pending 1) = some false := by decide +kernel
  refine ⟨unset, by decide +kernel, by decide +kernel, ?_⟩
  intro retained
  obtain ⟨files, aia, set⟩ := retained.recorded
  have same : sent.aia = some files := aia
  rw [same] at unset
  have clear : (files true).pending 1 = false := Option.some.inj unset
  exact absurd (clear.symm.trans set) (by decide)

end Rvvm
