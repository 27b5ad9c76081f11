import Rvvm.Cpu.AiaScan
import Rvvm.Cpu.Csr
import Rvvm.Library.Runs

/-! The external-interrupt file against what it is for: reporting the smallest deliverable
identity and keeping the pending bit of the hart equal to whether there is one. -/
namespace Rvvm
open BitVec Option Runs
open Function (update update_eq_self update_self)

variable {δ : Type}

/-! One operation on the file. -/

namespace AiaRegfile
variable {file : AiaRegfile}

theorem exists_least (any : ∃ i, file.Deliverable i) : ∃ m, IsLeast {i | file.Deliverable i} m := by
  classical
  exact ⟨Nat.find any, Nat.find_spec any, fun i deliverable => Nat.find_min' any deliverable⟩

def ReadOk (file : AiaRegfile) : Prop :=
  ¬ file.Seen 0 ∧ ∀ m, IsLeast {i | file.Deliverable i} m → file.Seen m

/-- A claim also relies on no live identity being left over that cannot be delivered. -/
def ClaimOk (file : AiaRegfile) : Prop :=
  file.ReadOk ∧ ∀ m, IsLeast {i | file.Deliverable i} m →
    (∃ j, file.Live j ∧ j ≠ m) → ∃ j, file.Deliverable j ∧ j ≠ m

variable {n : Nat}

theorem ReadOk.isLeast (on : file.eidelivery = 1) (ok : file.ReadOk)
    (least : IsLeast {i | file.Seen i} n) : IsLeast {i | file.Deliverable i} n := by
  have named : n ≠ 0 := fun zero => ok.1 (zero ▸ least.1)
  have own : file.Deliverable n := Seen.deliverable least.1 on named
  obtain ⟨m, top⟩ := exists_least ⟨n, own⟩
  have same : m = n := le_antisymm (top.2 own) (least.2 (ok.2 m top))
  exact same ▸ top

theorem readOk_of_isLeast (least : IsLeast {i | file.Seen i} n)
    (top : IsLeast {i | file.Deliverable i} n) : file.ReadOk := by
  refine ⟨fun zero => ?_, fun m other => ?_⟩
  · have first : n ≤ 0 := least.2 zero
    have named : 1 ≤ n := top.1.2.1
    omega
  · rw [other.unique top]
    exact least.1

theorem readOk_unseen (none : ∀ i, ¬ file.Seen i) : file.ReadOk ↔ ∀ i, ¬ file.Deliverable i := by
  constructor
  · intro ok i deliverable
    obtain ⟨m, top⟩ := exists_least ⟨i, deliverable⟩
    exact none m (ok.2 m top)
  · intro nothing
    exact ⟨none 0, fun m top => absurd top.1 (nothing m)⟩

theorem deliverable_clear (small : n < 256) (i : Nat) :
    (file.clear n).Deliverable i ↔ file.Deliverable i ∧ i ≠ n := by
  show file.eidelivery = 1 ∧ 1 ≤ i ∧ (file.clear n).Live i ∧ (file.eithreshold = 0 ∨ _) ↔ _
  rw [live_clear small]
  unfold Deliverable
  tauto

theorem ReadOk.later (ok : file.ReadOk) (top : IsLeast {i | file.Deliverable i} n) {j : Nat}
    (live : file.Live j) : n / 32 ≤ j / 32 := by
  have deliverable {i : Nat} (named : 1 ≤ i) (below : i < n) (other : file.Live i) : False := by
    have beyond : n ≤ i := by
      refine top.2 ⟨top.1.1, named, other, ?_⟩
      rcases top.1.2.2.2 with off | under
      · exact .inl off
      · exact .inr (by omega)
    omega
  by_contra early
  by_cases named : 1 ≤ j
  · exact deliverable named (by omega) live
  · have zero : j = 0 := by omega
    subst zero
    refine ok.1 ⟨live, fun i other same => ?_, ?_⟩
    · by_contra above
      exact deliverable (by omega) (by omega) other
    · rcases top.1.2.2.2 with off | under
      · exact .inl off
      · exact .inr (by omega)

end AiaRegfile

def PendingRight (smode : Bool) (vm : Hart δ) : Prop :=
  ∀ files, vm.aia = some files →
    (vm.aiaPending smode = true ↔ ∃ i, (files smode).Deliverable i)

theorem pendingRight_iff {smode : Bool} {vm : Hart δ} {files : Bool → AiaRegfile}
    (aia : vm.aia = some files) :
    PendingRight smode vm ↔ (vm.aiaPending smode = true ↔ ∃ i, (files smode).Deliverable i) := by
  constructor
  · exact fun right => right files aia
  · intro right files' same
    obtain rfl : files = files' := some.inj (aia.symm.trans same)
    exact right

/-- What a read of the file must do, or a claim: report the top identity, clear it exactly if
it is claimed, and leave the pending bit right. -/
def GetRight (smode claim : Bool) (vm : Hart δ) (files : Bool → AiaRegfile) : Prop :=
  let out := riscvGetAiaIrq vm smode claim
  (files smode).Top out.1.toNat ∧
    out.2.aia = some (update files smode
      (if claim ∧ out.1 ≠ 0 then (files smode).clear out.1.toNat else files smode)) ∧
      PendingRight smode out.2

section Get
variable {vm : Hart δ} {smode : Bool} {files : Bool → AiaRegfile} (aia : vm.aia = some files)
include aia

theorem getRight_off (off : (files smode).eidelivery = 0) (claim : Bool) :
    GetRight smode claim vm files := by
  have nothing (i : Nat) : ¬ (files smode).Deliverable i := by
    intro deliverable
    have on := deliverable.1
    rw [off] at on
    cases on
  unfold GetRight
  rw [riscvGetAiaIrq_off smode aia off]
  refine ⟨.inr ⟨rfl, nothing⟩, ?_, ?_⟩
  · rw [if_neg (by simp), update_eq_self]
    exact aia
  · have kept : (riscvInterruptClear vm (externalIrq smode)).aia = some files := aia
    rw [pendingRight_iff kept, riscvInterruptClear_aiaPending]
    exact iff_of_false (by simp) fun ⟨i, deliverable⟩ => nothing i deliverable

theorem getRight_read_iff (on : (files smode).eidelivery = 1) :
    GetRight smode false vm files ↔ (files smode).ReadOk := by
  obtain ⟨kept, outcome⟩ := riscvGetAiaIrq_read smode aia (by rw [on]; decide)
  unfold GetRight
  dsimp only
  rw [pendingRight_iff kept]
  rcases outcome with ⟨least, raised⟩ | ⟨none, zero, idle⟩
  · rw [raised]
    constructor
    · rintro ⟨top, -, right⟩
      rcases top with top | ⟨-, nothing⟩
      · exact AiaRegfile.readOk_of_isLeast least top
      · obtain ⟨i, deliverable⟩ := right.mp rfl
        exact absurd deliverable (nothing i)
    · intro ok
      have top := ok.isLeast on least
      refine ⟨.inl top, ?_, iff_of_true rfl ⟨_, top.1⟩⟩
      rw [if_neg (by simp), update_eq_self]
      exact kept
  · rw [AiaRegfile.readOk_unseen none, idle, zero]
    constructor
    · rintro ⟨-, -, right⟩ i deliverable
      exact absurd (right.mpr ⟨i, deliverable⟩) (by simp)
    · intro nothing
      refine ⟨.inr ⟨rfl, nothing⟩, ?_, iff_of_false (by simp) fun ⟨i, deliverable⟩ => nothing i deliverable⟩
      rw [if_neg (by simp), update_eq_self]
      exact kept

theorem getRight_claim_iff (on : (files smode).eidelivery = 1) :
    GetRight smode true vm files ↔ (files smode).ClaimOk := by
  have enabled : (files smode).eidelivery ≠ 0 := by
    rw [on]
    decide
  by_cases zero : (files smode).Seen 0
  · -- identity 0 loses its bit although it is never the one reported
    obtain ⟨file, after, cleared, reported⟩ := riscvGetAiaIrq_claim_zero smode aia enabled zero
    refine iff_of_false ?_ fun ok => ok.1.1 zero
    rintro ⟨-, kept, -⟩
    have set : ((files smode).eip 0).getLsbD 0 = true := by
      have bit : ((files smode).eip 0 &&& (files smode).eie 0).getLsbD 0 = true := zero.1.2
      rw [getLsbD_and, Bool.and_eq_true] at bit
      exact bit.1
    have both := congrFun (some.inj (after.symm.trans kept)) smode
    rw [update_self, update_self] at both
    rw [both] at cleared
    split at cleared
    next claimed =>
      have other : (0 : Fin 8) ≠ wordOf (riscvGetAiaIrq vm smode true).1.toNat :=
        (reported.resolve_left claimed.2).symm
      have same : ((files smode).clear (riscvGetAiaIrq vm smode true).1.toNat).eip 0 = (files smode).eip 0 :=
        Function.update_of_ne other _ _
      rw [same, set] at cleared
      cases cleared
    next =>
      rw [set] at cleared
      cases cleared
  · rcases riscvGetAiaIrq_claim smode aia enabled zero with
      ⟨n, least, value, after, pending⟩ | ⟨none, value, after, idle⟩
    · have small : n < 256 := least.1.1.1
      have named : n ≠ 0 := fun first => zero (first ▸ least.1)
      have nonzero : (riscvGetAiaIrq vm smode true).1 ≠ 0 := by
        intro first
        rw [first] at value
        exact named value.symm
      unfold GetRight
      dsimp only
      rw [pendingRight_iff after, pending, value, if_pos ⟨rfl, nonzero⟩, update_self, after]
      simp only [AiaRegfile.deliverable_clear small, AiaRegfile.live_clear small]
      constructor
      · rintro ⟨top, -, right⟩
        have top : IsLeast {i | (files smode).Deliverable i} n := top.resolve_right fun first => named first.1
        have ok := AiaRegfile.readOk_of_isLeast least top
        refine ⟨ok, fun m other => ?_⟩
        rw [other.unique top]
        rintro ⟨j, live, differs⟩
        exact right.mp ⟨j, ⟨live, differs⟩, ok.later top live⟩
      · intro ok
        have top := ok.1.isLeast on least
        refine ⟨.inl top, trivial, ?_⟩
        constructor
        · rintro ⟨j, left, -⟩
          exact ok.2 n top ⟨j, left⟩
        · rintro ⟨j, deliverable, differs⟩
          exact ⟨j, ⟨deliverable.2.2.1, differs⟩, ok.1.later top deliverable.2.2.1⟩
    · have nothing : (files smode).ClaimOk ↔ ∀ i, ¬ (files smode).Deliverable i := by
        rw [← AiaRegfile.readOk_unseen none]
        refine and_iff_left_of_imp fun ok m top => ?_
        exact absurd (ok.2 m top) (none m)
      unfold GetRight
      dsimp only
      rw [nothing, pendingRight_iff after, idle, value, after, if_neg (by simp), update_eq_self]
      constructor
      · rintro ⟨-, -, right⟩ i deliverable
        exact absurd (right.mpr ⟨i, deliverable⟩) (by simp)
      · intro nothing
        exact ⟨.inr ⟨rfl, nothing⟩, rfl, iff_of_false (by simp) fun ⟨i, deliverable⟩ => nothing i deliverable⟩

end Get

namespace AiaRegfile
variable (file : AiaRegfile)

def pending (i : Nat) : Bool := (file.eip (wordOf i)).getLsbD (i % 32)

def enabled (i : Nat) : Bool := (file.eie (wordOf i)).getLsbD (i % 32)

def receive (i : Nat) : AiaRegfile :=
  file.setEip (wordOf i) (file.eip (wordOf i) ||| (1#32 <<< (i % 32)))

/-- When the pending bit of the hart is right after a message: the identity just below the
threshold is not noticed unless something else is deliverable anyway. -/
def SendOk (irq : BitVec 32) : Prop :=
  ¬ (file.eidelivery = 1 ∧ irq ≠ 0 ∧ irq.toNat < 256 ∧ file.pending irq.toNat = false ∧
    file.enabled irq.toNat = true ∧ irq.toNat + 1 = file.eithreshold.toNat ∧ ∀ i, ¬ file.Deliverable i)

variable {file}

theorem live_split (i : Nat) :
    file.Live i ↔ i < 256 ∧ file.pending i = true ∧ file.enabled i = true := by
  unfold Live word
  rw [getLsbD_and, Bool.and_eq_true]
  exact Iff.rfl

theorem getLsbD_bit {n i : Nat} (small : n < 256) (below : i < 256) (same : wordOf i = wordOf n) :
    (1#32 <<< (n % 32)).getLsbD (i % 32) = decide (i = n) := by
  have words : i / 32 % 8 = n / 32 % 8 := congrArg Fin.val same
  show (twoPow 32 (n % 32)).getLsbD (i % 32) = _
  rw [getLsbD_twoPow, decide_eq_true (by omega)]
  exact decide_eq_decide.mpr (by omega)

theorem pending_receive {n i : Nat} (small : n < 256) (below : i < 256) :
    (file.receive n).pending i = (file.pending i || decide (i = n)) := by
  show (update file.eip (wordOf n) _ (wordOf i)).getLsbD (i % 32) = _
  by_cases same : wordOf i = wordOf n
  · rw [same, update_self, getLsbD_or, getLsbD_bit small below same, ← same]
    rfl
  · have other : i ≠ n := by
      rintro rfl
      exact same rfl
    rw [Function.update_of_ne same, decide_eq_false other, Bool.or_false]
    rfl

theorem live_receive {n : Nat} (small : n < 256) (i : Nat) :
    (file.receive n).Live i ↔ file.Live i ∨ (i = n ∧ file.enabled n = true) := by
  rw [live_split, live_split]
  constructor
  · rintro ⟨below, pending, enabled⟩
    rw [pending_receive small below, Bool.or_eq_true, decide_eq_true_iff] at pending
    rcases pending with pending | rfl
    · exact .inl ⟨below, pending, enabled⟩
    · exact .inr ⟨rfl, enabled⟩
  · rintro (⟨below, pending, enabled⟩ | ⟨rfl, enabled⟩)
    · exact ⟨below, by rw [pending_receive small below, pending, Bool.true_or], enabled⟩
    · exact ⟨small, by rw [pending_receive small small, decide_eq_true rfl, Bool.or_true], enabled⟩

theorem deliverable_receive {n : Nat} (named : 1 ≤ n) (small : n < 256) (i : Nat) :
    (file.receive n).Deliverable i ↔ file.Deliverable i ∨ (i = n ∧ file.eidelivery = 1 ∧
      file.enabled n = true ∧ (file.eithreshold = 0 ∨ n < file.eithreshold.toNat)) := by
  show file.eidelivery = 1 ∧ 1 ≤ i ∧ (file.receive n).Live i ∧ (file.eithreshold = 0 ∨ _) ↔ _
  rw [live_receive small]
  constructor
  · rintro ⟨on, first, live | ⟨rfl, enabled⟩, below⟩
    · exact .inl ⟨on, first, live, below⟩
    · exact .inr ⟨rfl, on, enabled, below⟩
  · rintro (⟨on, first, live, below⟩ | ⟨rfl, on, enabled, below⟩)
    · exact ⟨on, first, .inl live, below⟩
    · exact ⟨on, named, .inr ⟨rfl, enabled⟩, below⟩

end AiaRegfile

theorem bit_and_eq_zero {x : BitVec 32} {b : Nat} (below : b < 32) :
    1#32 <<< b &&& x = 0 ↔ x.getLsbD b = false := by
  show twoPow 32 b &&& x = 0 ↔ _
  rw [twoPow_and]
  cases x.getLsbD b with
  | false => exact iff_of_true (if_neg (by decide)) rfl
  | true =>
    refine iff_of_false ?_ (by decide)
    intro zero
    have bit := congrArg (getLsbD · b) zero
    simp [below] at bit

section Send
variable {vm : Hart δ} {smode : Bool} {files : Bool → AiaRegfile} (aia : vm.aia = some files)
include aia

theorem riscvSendAiaIrq_ignored (irq : BitVec 32)
    (ignored : irq = 0 ∨ 256 ≤ irq.toNat ∨ (files smode).eidelivery = 0) :
    riscvSendAiaIrq vm smode irq = vm := by
  unfold riscvSendAiaIrq
  rw [aia]
  dsimp only
  rcases ignored with zero | large | off
  · rw [if_neg fun valid => valid.1 zero]
  · rw [if_neg fun valid => absurd valid.2 (not_lt.mpr large)]
  · rw [if_neg (not_not.mpr off), ite_self]

theorem riscvSendAiaIrq_received (irq : BitVec 32) (named : irq ≠ 0) (small : irq.toNat < 256)
    (on : (files smode).eidelivery ≠ 0) :
    (riscvSendAiaIrq vm smode irq).aia =
        some (update files smode ((files smode).receive irq.toNat)) ∧
      ((riscvSendAiaIrq vm smode irq).aiaPending smode = true ↔ vm.aiaPending smode = true ∨
        ((files smode).enabled irq.toNat = true ∧ (files smode).pending irq.toNat = false ∧
          ((files smode).eithreshold = 0 ∨ irq.toNat + 1 < (files smode).eithreshold.toNat))) := by
  have below : irq < (files smode).thresh ↔
      ((files smode).eithreshold = 0 ∨ irq.toNat + 1 < (files smode).eithreshold.toNat) := by
    rw [← AiaRegfile.below_thresh_iff small, ofNat_toNat, setWidth_eq]
  have bit : irq.toNat % 32 < 32 := Nat.mod_lt _ (by decide)
  have settled := setAia_aia smode aia ((files smode).receive irq.toNat)
  have result : riscvSendAiaIrq vm smode irq =
      if irq < (files smode).thresh ∧ 1#32 <<< (irq.toNat % 32) &&& (files smode).eie (wordOf irq.toNat) ≠ 0 ∧
          1#32 <<< (irq.toNat % 32) &&& (files smode).eip (wordOf irq.toNat) = 0 then
        riscvInterrupt (vm.setAia smode ((files smode).receive irq.toNat)) (externalIrq smode)
      else vm.setAia smode ((files smode).receive irq.toNat) := by
    unfold riscvSendAiaIrq
    rw [aia]
    exact (if_pos ⟨named, small⟩).trans (if_pos on)
  have noticed : irq < (files smode).thresh ∧
      1#32 <<< (irq.toNat % 32) &&& (files smode).eie (wordOf irq.toNat) ≠ 0 ∧
        1#32 <<< (irq.toNat % 32) &&& (files smode).eip (wordOf irq.toNat) = 0 ↔
      (files smode).enabled irq.toNat = true ∧ (files smode).pending irq.toNat = false ∧
        ((files smode).eithreshold = 0 ∨ irq.toNat + 1 < (files smode).eithreshold.toNat) := by
    rw [below, ne_eq, bit_and_eq_zero bit, bit_and_eq_zero bit, Bool.not_eq_false]
    exact and_comm.trans and_assoc
  rw [result]
  split
  next raised =>
    exact ⟨(riscvInterrupt_aia _ _).trans settled,
      iff_of_true (riscvInterrupt_aiaPending _ smode) (.inr (noticed.mp raised))⟩
  next kept => exact ⟨settled, (or_iff_left fun raised => kept (noticed.mpr raised)).symm⟩

theorem send_right_iff (known : (files smode).eidelivery = 0 ∨ (files smode).eidelivery = 1)
    (right : PendingRight smode vm) (irq : BitVec 32) :
    PendingRight smode (riscvSendAiaIrq vm smode irq) ↔ (files smode).SendOk irq := by
  by_cases ignored : irq = 0 ∨ 256 ≤ irq.toNat ∨ (files smode).eidelivery = 0
  · rw [riscvSendAiaIrq_ignored aia irq ignored]
    refine iff_of_true right ?_
    rintro ⟨on, named, small, -⟩
    rcases ignored with zero | large | off
    · exact named zero
    · omega
    · rw [off] at on
      cases on
  · have named : irq ≠ 0 := fun zero => ignored (.inl zero)
    have small : irq.toNat < 256 := not_le.mp fun large => ignored (.inr (.inl large))
    have nonzero : (files smode).eidelivery ≠ 0 := fun off => ignored (.inr (.inr off))
    have on := known.resolve_left nonzero
    have first : 1 ≤ irq.toNat := by
      by_contra zero
      exact named (eq_of_toNat_eq (by simpa using zero))
    obtain ⟨after, pending⟩ := riscvSendAiaIrq_received aia irq named small nonzero
    rw [pendingRight_iff aia] at right
    rw [pendingRight_iff after, pending, right, update_self]
    simp only [AiaRegfile.deliverable_receive first small, exists_or, exists_eq_left]
    have zero : (files smode).eithreshold = 0 ↔ (files smode).eithreshold.toNat = 0 := by
      rw [← toNat_inj]
      exact Iff.rfl
    rw [zero]
    by_cases nothing : ∀ i, ¬ (files smode).Deliverable i
    · have fresh (enabled : (files smode).enabled irq.toNat = true)
          (below : (files smode).eithreshold.toNat = 0 ∨ irq.toNat < (files smode).eithreshold.toNat) :
          (files smode).pending irq.toNat = false := by
        by_contra set
        have live := (AiaRegfile.live_split _).mpr ⟨small, by simpa using set, enabled⟩
        exact nothing _ ⟨on, first, live, below.imp_left zero.mpr⟩
      have none : ¬ ∃ i, (files smode).Deliverable i := fun ⟨i, deliverable⟩ => nothing i deliverable
      rw [or_iff_right none, or_iff_right none]
      constructor
      · rintro same ⟨-, -, -, -, enabled, edge, -⟩
        have under := (same.mpr ⟨on, enabled, .inr (by omega)⟩).2.2
        omega
      · intro ok
        constructor
        · rintro ⟨enabled, -, below⟩
          exact ⟨on, enabled, by omega⟩
        · rintro ⟨-, enabled, below⟩
          refine ⟨enabled, fresh enabled below, ?_⟩
          by_contra edge
          exact ok ⟨on, named, small, fresh enabled below, enabled, by omega, nothing⟩
    · have already : ∃ i, (files smode).Deliverable i := by
        by_contra none
        exact nothing fun i deliverable => none ⟨i, deliverable⟩
      exact iff_of_true (iff_of_true (.inl already) (.inl already)) fun bad => nothing bad.2.2.2.2.2.2

end Send

namespace AiaRegfile
variable (file : AiaRegfile)

def write (reg : AiaReg) (dest : BitVec 64) (op : CsrOp) : AiaRegfile :=
  file.set (riscvCsrAtomicHelper (file.get reg) dest op).1 reg

/-- The file after an access to one word of an array, or to two on RV64. -/
def writePair (rv64 : Bool) (reg : Nat) (arr : Fin 8 → AiaReg) (dest : BitVec 64) (op : CsrOp) :
    Option AiaRegfile :=
  if rv64 && reg % 2 == 1 then none
  else if inRange : reg < 8 then
    if riscvIsCsrWrite dest op then
      let low := file.write (arr ⟨reg, inRange⟩) dest op
      some (if next : rv64 = true ∧ reg + 1 < 8 then low.write (arr ⟨reg + 1, next.2⟩) (dest >>> 32) op
        else low)
    else none
  else none

/-- The file after an indirect access, if the access writes it at all. -/
def access (rv64 : Bool) (csri : Nat) (dest : BitVec 64) (op : CsrOp) : Option AiaRegfile :=
  if csri = 0x70 then
    if riscvIsCsrWrite (dest &&& 1) op then some (file.write .eidelivery (dest &&& 1) op) else none
  else if csri = 0x72 then
    if riscvIsCsrWrite dest op then some (file.write .eithreshold dest op) else none
  else if 0x30 ≤ csri ∧ csri ≤ 0x3F then none
  else if 0x80 ≤ csri ∧ csri ≤ 0xBF then file.writePair rv64 (csri - 0x80) .eip dest op
  else if 0xC0 ≤ csri ∧ csri ≤ 0xFF then file.writePair rv64 (csri - 0xC0) .eie dest op
  else none

variable {file}

theorem riscvCsrAtomicHelper_written (val : BitVec 32) (dest : BitVec 64) (op : CsrOp) :
    (riscvCsrAtomicHelper val dest op).2.2 = riscvIsCsrWrite dest op := by
  unfold riscvCsrAtomicHelper riscvIsCsrWrite
  cases op with
  | swap => exact (Bool.or_true _).symm
  | setbits | clearbits =>
    by_cases zero : dest = 0#64
    · subst zero
      rfl
    · simp [zero]

section
variable {dest : BitVec 64} {op : CsrOp} (kept : riscvIsCsrWrite dest op = false)
include kept

theorem write_unwritten
    (reg : AiaReg) : file.write reg dest op = file := by
  have value : (riscvCsrAtomicHelper (file.get reg) dest op).1 = file.get reg := by
    unfold riscvCsrAtomicHelper
    unfold riscvIsCsrWrite at kept
    cases op <;> simp_all
  unfold write
  rw [value]
  cases reg <;> simp [set, get, setEip]

theorem unwritten_high :
    riscvIsCsrWrite (dest >>> 32) op = false := by
  unfold riscvIsCsrWrite at kept ⊢
  rw [Bool.or_eq_false_iff, bne_eq_false_iff_eq] at kept ⊢
  refine ⟨?_, kept.2⟩
  rw [kept.1]
  rfl
end

end AiaRegfile

/-- The pending bit that a scan of the file leaves. -/
def AiaRegfile.Raises (file : AiaRegfile) : Prop := file.eidelivery ≠ 0 ∧ ∃ i, file.Seen i

/-- What an access does to the hart, given the file it writes. -/
def Accessed (smode : Bool) (files : Bool → AiaRegfile) (vm vm' : Hart δ) : Option AiaRegfile → Prop
  | none => vm'.aia = some files ∧ vm'.aiaPending smode = vm.aiaPending smode
  | some file =>
    vm'.aia = some (update files smode file) ∧ (vm'.aiaPending smode = true ↔ file.Raises)

section Access
variable {vm : Hart δ} (smode : Bool) {files : Bool → AiaRegfile} (aia : vm.aia = some files)
include aia

theorem riscvUpdateAiaState_raises :
    (riscvUpdateAiaState vm smode).aia = some files ∧
      ((riscvUpdateAiaState vm smode).aiaPending smode = true ↔ (files smode).Raises) := by
  have state : riscvUpdateAiaState vm smode = (riscvGetAiaIrq vm smode false).2 := rfl
  rw [state]
  by_cases off : (files smode).eidelivery = 0
  · rw [riscvGetAiaIrq_off smode aia off false]
    refine ⟨aia, iff_of_false ?_ fun raises => raises.1 off⟩
    rw [riscvInterruptClear_aiaPending]
    decide
  · obtain ⟨kept, ⟨least, raised⟩ | ⟨none, -, idle⟩⟩ := riscvGetAiaIrq_read smode aia off
    · exact ⟨kept, iff_of_true raised ⟨off, _, least.1⟩⟩
    · refine ⟨kept, iff_of_false ?_ fun ⟨_, i, seen⟩ => none i seen⟩
      rw [idle]
      decide

theorem riscvCsrAiaHelper_accessed (reg : AiaReg) (dest : BitVec 64) (op : CsrOp) :
    Accessed smode files vm (riscvCsrAiaHelper vm files smode reg dest op).vm
      (if riscvIsCsrWrite dest op then some ((files smode).write reg dest op) else none) := by
  have settled := setAia_aia smode aia ((files smode).write reg dest op)
  have result : (riscvCsrAiaHelper vm files smode reg dest op).vm =
      if riscvIsCsrWrite dest op then
        riscvUpdateAiaState (vm.setAia smode ((files smode).write reg dest op)) smode
      else vm.setAia smode ((files smode).write reg dest op) := by
    rw [← AiaRegfile.riscvCsrAtomicHelper_written ((files smode).get reg)]
    rfl
  rw [result]
  cases written : riscvIsCsrWrite dest op with
  | false =>
    rw [AiaRegfile.write_unwritten written] at settled ⊢
    rw [update_eq_self] at settled
    exact ⟨settled, rfl⟩
  | true =>
    obtain ⟨kept, pending⟩ := riscvUpdateAiaState_raises smode settled
    rw [update_self] at pending
    exact ⟨kept, pending⟩

theorem riscvCsrAiaPairHelper_accessed (reg : Nat) (arr : Fin 8 → AiaReg) (dest : BitVec 64) (op : CsrOp) :
    Accessed smode files vm (riscvCsrAiaPairHelper vm smode reg arr dest op).vm
      ((files smode).writePair vm.rv64 reg arr dest op) := by
  unfold riscvCsrAiaPairHelper AiaRegfile.writePair
  rw [aia]
  dsimp only
  split
  · exact ⟨aia, rfl⟩
  split
  next inRange =>
    have low := riscvCsrAiaHelper_accessed smode aia (arr ⟨reg, inRange⟩) dest op
    cases written : riscvIsCsrWrite dest op with
    | false =>
      rw [written] at low
      rw [low.1]
      dsimp only
      split
      next pair =>
        have high := riscvCsrAiaHelper_accessed smode low.1 (arr ⟨reg + 1, pair.2⟩) (dest >>> 32) op
        rw [AiaRegfile.unwritten_high written] at high
        exact ⟨high.1, high.2.trans low.2⟩
      · exact low
    | true =>
      rw [written] at low
      rw [low.1]
      dsimp only
      split
      next pair =>
        have high := riscvCsrAiaHelper_accessed smode low.1 (arr ⟨reg + 1, pair.2⟩) (dest >>> 32) op
        rw [update_self] at high
        cases more : riscvIsCsrWrite (dest >>> 32) op with
        | false =>
          rw [more] at high
          rw [AiaRegfile.write_unwritten more]
          exact ⟨high.1, high.2 ▸ low.2⟩
        | true =>
          rw [more] at high
          exact ⟨high.1.trans (by rw [Function.update_idem]), high.2⟩
      · exact low
  · exact ⟨aia, rfl⟩

theorem riscvCsrIndirect_accessed (priv : Priv) (named : (priv == .supervisor) = smode) (csri dest : BitVec 64)
    (op : CsrOp) :
    Accessed smode files vm (riscvCsrIndirect vm priv csri dest op).vm
      ((files smode).access vm.rv64 (csri.setWidth 32).toNat dest op) := by
  unfold riscvCsrIndirect AiaRegfile.access
  rw [aia, named]
  dsimp only
  split
  · exact riscvCsrAiaHelper_accessed smode aia .eidelivery (dest &&& 1) op
  split
  · exact riscvCsrAiaHelper_accessed smode aia .eithreshold dest op
  split
  · exact ⟨aia, rfl⟩
  split
  · exact riscvCsrAiaPairHelper_accessed smode aia _ .eip dest op
  split
  · exact riscvCsrAiaPairHelper_accessed smode aia _ .eie dest op
  · exact ⟨aia, rfl⟩

end Access

/-! Delivery is switched on by writing 1, and the file keeps no other value. -/

namespace AiaRegfile
variable {file : AiaRegfile}

def Known (file : AiaRegfile) : Prop := file.eidelivery = 0 ∨ file.eidelivery = 1

theorem write_eidelivery (known : file.Known) (dest : BitVec 64) (op : CsrOp) :
    (file.write .eidelivery (dest &&& 1) op).Known := by
  show (riscvCsrAtomicHelper file.eidelivery (dest &&& 1) op).1 = 0 ∨
    (riscvCsrAtomicHelper file.eidelivery (dest &&& 1) op).1 = 1
  have bit : dest &&& 1 = 0 ∨ dest &&& 1 = 1 := by
    have cut := and_one_eq_setWidth_ofBool_getLsbD (x := dest)
    cases low : dest.getLsbD 0 with
    | false =>
      rw [low] at cut
      exact .inl cut
    | true =>
      rw [low] at cut
      exact .inr cut
  rcases known with before | before <;> rcases bit with value | value <;> rw [before, value] <;>
    cases op <;> decide

theorem writePair_known (known : file.Known) {rv64 : Bool} {reg : Nat} {arr : Fin 8 → AiaReg}
    (other : ∀ (file : AiaRegfile) i dest op, (file.write (arr i) dest op).eidelivery = file.eidelivery)
    {dest : BitVec 64} {op : CsrOp} {file' : AiaRegfile}
    (written : file.writePair rv64 reg arr dest op = some file') : file'.Known := by
  unfold writePair at written
  split at written
  · cases written
  split at written
  · split at written
    · cases written
      unfold Known
      split
      · rw [other, other]
        exact known
      · rw [other]
        exact known
    · cases written
  · cases written

theorem access_known (known : file.Known) {rv64 : Bool} {csri : Nat} {dest : BitVec 64} {op : CsrOp}
    {file' : AiaRegfile} (written : file.access rv64 csri dest op = some file') : file'.Known := by
  unfold access at written
  split at written
  · split at written
    · cases written
      exact write_eidelivery known dest op
    · cases written
  split at written
  · split at written
    · cases written
      exact known
    · cases written
  split at written
  · cases written
  split at written
  · exact writePair_known known (fun _ _ _ _ => rfl) written
  split at written
  · exact writePair_known known (fun _ _ _ _ => rfl) written
  · cases written

end AiaRegfile

/-- The operations on one interrupt file: messages, accesses to its registers, and reads or
writes of the top-interrupt register. -/
inductive AiaOp
  | send (irq : BitVec 32)
  | access (csri dest : BitVec 64) (op : CsrOp)
  | topei (dest : BitVec 64) (op : CsrOp)

section Runs
variable (priv : Priv)

def aiaMode : Bool := priv == .supervisor

def aiaStep (vm : Hart δ) : AiaOp → Hart δ
  | .send irq => riscvSendAiaIrq vm (aiaMode priv) irq
  | .access csri dest op => (riscvCsrIndirect vm priv csri dest op).vm
  | .topei dest op => (riscvCsrTopei vm priv dest op).vm

def AiaRight (vm : Hart δ) (op : AiaOp) : Prop :=
  PendingRight (aiaMode priv) (aiaStep priv vm op) ∧
    match op with
    | .topei dest op => ∀ files, vm.aia = some files →
        GetRight (aiaMode priv) (riscvIsCsrWrite dest op) vm files
    | _ => True

def AiaOk (vm : Hart δ) (op : AiaOp) : Prop :=
  ∀ files, vm.aia = some files →
    let file := files (aiaMode priv)
    match op with
    | .send irq => file.SendOk irq
    | .access csri dest op => ∀ file', file.access vm.rv64 (csri.setWidth 32).toNat dest op = some file' →
        file'.eidelivery = 1 → ((∃ i, file'.Seen i) ↔ ∃ i, file'.Deliverable i)
    | .topei dest op => file.eidelivery = 1 →
        if riscvIsCsrWrite dest op then file.ClaimOk else file.ReadOk

/-- The file exists, delivery is on or off, and the pending bit is right. -/
structure AiaInv (vm : Hart δ) : Prop where
  present : ∃ files, vm.aia = some files ∧ (files (aiaMode priv)).Known
  right : PendingRight (aiaMode priv) vm

variable {vm : Hart δ} {files : Bool → AiaRegfile}

theorem riscvCsrTopei_vm (aia : vm.aia = some files)
    (dest : BitVec 64) (op : CsrOp) :
    (riscvCsrTopei vm priv dest op).vm = (riscvGetAiaIrq vm (aiaMode priv) (riscvIsCsrWrite dest op)).2 := by
  unfold riscvCsrTopei
  rw [if_pos (by rw [aia]; rfl)]
  rfl

theorem access_right_iff (aia : vm.aia = some files)
    (known : (files (aiaMode priv)).Known) (right : PendingRight (aiaMode priv) vm) (csri dest : BitVec 64)
    (op : CsrOp) :
    PendingRight (aiaMode priv) (riscvCsrIndirect vm priv csri dest op).vm ↔
      ∀ file', (files (aiaMode priv)).access vm.rv64 (csri.setWidth 32).toNat dest op = some file' →
        file'.eidelivery = 1 → ((∃ i, file'.Seen i) ↔ ∃ i, file'.Deliverable i) := by
  have accessed := riscvCsrIndirect_accessed (aiaMode priv) aia priv rfl csri dest op
  cases written : (files (aiaMode priv)).access vm.rv64 (csri.setWidth 32).toNat dest op with
  | none =>
    rw [written] at accessed
    refine iff_of_true ?_ nofun
    rw [pendingRight_iff accessed.1, accessed.2, ← pendingRight_iff aia]
    exact right
  | some file =>
    rw [written] at accessed
    rw [pendingRight_iff accessed.1, accessed.2, update_self]
    simp only [some.injEq, forall_eq']
    rcases AiaRegfile.access_known known written with off | on
    · have silent : ¬ file.Raises := fun raises => raises.1 off
      have nothing : ¬ ∃ i, file.Deliverable i := by
        rintro ⟨i, deliverable⟩
        have on := deliverable.1
        rw [off] at on
        cases on
      exact iff_of_true (iff_of_false silent nothing) fun on => absurd (off.symm.trans on) (by decide)
    · have enabled : file.eidelivery ≠ 0 := by
        rw [on]
        decide
      rw [forall_prop_of_true on, AiaRegfile.Raises, and_iff_right enabled]

theorem getRight_iff {smode : Bool} (aia : vm.aia = some files)
    (known : (files smode).Known) (claim : Bool) :
    GetRight smode claim vm files ↔
      ((files smode).eidelivery = 1 → if claim then (files smode).ClaimOk else (files smode).ReadOk) := by
  rcases known with off | on
  · exact iff_of_true (getRight_off aia off claim) fun on => absurd (off.symm.trans on) (by decide)
  · rw [forall_prop_of_true on]
    cases claim with
    | false => exact getRight_read_iff aia on
    | true => exact getRight_claim_iff aia on

theorem aiaRight_iff (inv : AiaInv priv vm) (op : AiaOp) :
    AiaRight priv vm op ↔ AiaOk priv vm op := by
  obtain ⟨files, aia, known⟩ := inv.present
  have only {p : (Bool → AiaRegfile) → Prop} : (∀ files', vm.aia = some files' → p files') ↔ p files := by
    rw [aia]
    simp
  unfold AiaRight AiaOk
  rw [only]
  cases op with
  | send irq =>
    rw [and_true]
    exact send_right_iff aia known inv.right irq
  | access csri dest op =>
    rw [and_true]
    exact access_right_iff priv aia known inv.right csri dest op
  | topei dest op =>
    dsimp only [aiaStep]
    rw [only, riscvCsrTopei_vm priv aia, and_iff_right_of_imp fun right => right.2.2]
    exact getRight_iff aia known (riscvIsCsrWrite dest op)

theorem aiaStep_inv (inv : AiaInv priv vm) {op : AiaOp} (right : AiaRight priv vm op) :
    AiaInv priv (aiaStep priv vm op) := by
  obtain ⟨files, aia, known⟩ := inv.present
  refine ⟨?_, right.1⟩
  have updated {file : AiaRegfile} (same : file.Known) :
      (update files (aiaMode priv) file (aiaMode priv)).Known := by
    rw [update_self]
    exact same
  cases op with
  | send irq =>
    show ∃ files', (riscvSendAiaIrq vm (aiaMode priv) irq).aia = some files' ∧ _
    by_cases ignored : irq = 0 ∨ 256 ≤ irq.toNat ∨ (files (aiaMode priv)).eidelivery = 0
    · rw [riscvSendAiaIrq_ignored aia irq ignored]
      exact ⟨files, aia, known⟩
    · have received := riscvSendAiaIrq_received aia irq (fun zero => ignored (.inl zero))
        (not_le.mp fun large => ignored (.inr (.inl large))) fun off => ignored (.inr (.inr off))
      exact ⟨_, received.1, updated known⟩
  | access csri dest op =>
    have accessed := riscvCsrIndirect_accessed (aiaMode priv) aia priv rfl csri dest op
    cases written : (files (aiaMode priv)).access vm.rv64 (csri.setWidth 32).toNat dest op with
    | none =>
      rw [written] at accessed
      exact ⟨files, accessed.1, known⟩
    | some file =>
      rw [written] at accessed
      exact ⟨_, accessed.1, updated (AiaRegfile.access_known known written)⟩
  | topei dest op =>
    obtain ⟨-, after, -⟩ := right.2 files aia
    rw [← riscvCsrTopei_vm priv aia] at after
    refine ⟨_, after, updated ?_⟩
    split <;> exact known

end Runs

/-- In every run on a fresh interrupt file, every operation does what it must exactly when its
condition holds of each. -/
theorem imsic_file_iff {δ : Type} (priv : Priv) (vm : Hart δ) (files : Bool → AiaRegfile)
    (aia : vm.aia = some files) (fresh : files (aiaMode priv) = ⟨0, 0, fun _ => 0, fun _ => 0⟩)
    (idle : vm.aiaPending (aiaMode priv) = false) (ops : List AiaOp) :
    AllSteps (aiaStep priv) (AiaRight priv) vm ops ↔
      AllSteps (aiaStep priv) (AiaOk priv) vm ops := by
  have start : AiaInv priv vm := by
    refine ⟨⟨files, aia, .inl (by rw [fresh])⟩, ?_⟩
    rw [pendingRight_iff aia, idle, fresh]
    exact iff_of_false (by decide) fun ⟨i, deliverable⟩ => absurd deliverable.1 (by decide)
  have right (s : Hart δ) (op : AiaOp) (inv : AiaInv priv s) : AiaRight priv s op ↔ AiaOk priv s op :=
    aiaRight_iff priv inv op
  constructor
  · exact AllSteps.entails (fun s op inv => aiaStep_inv priv inv)
      (fun s op inv => (right s op inv).mp) start
  · exact AllSteps.entails (fun s op inv ok => aiaStep_inv priv inv ((right s op inv).mpr ok))
      (fun s op inv => (right s op inv).mpr) start

def imsicHart : Hart Unit :=
  { riscvHartInit .empty (fun _ => 0) [] () true false with
    aia := some fun _ => ⟨0, 0, fun _ => 0, fun _ => 0⟩ }

/-- Delivery on, identities 1 and 2 enabled and sent, and a read of `stopei`. -/
def twoMessages : List AiaOp :=
  [.access 0x70 1 .swap, .access 0xC0 6 .swap, .send 1, .send 2, .topei 0 .setbits]

theorem imsic_file_iff_imsicHart :
    (∃ files, imsicHart.aia = some files ∧ files (aiaMode .supervisor) = ⟨0, 0, fun _ => 0, fun _ => 0⟩) ∧
      imsicHart.aiaPending (aiaMode .supervisor) = false ∧
        (AllSteps (aiaStep .supervisor) (AiaRight .supervisor) imsicHart twoMessages ↔
          AllSteps (aiaStep .supervisor) (AiaOk .supervisor) imsicHart twoMessages) :=
  ⟨⟨_, rfl, rfl⟩, by decide, imsic_file_iff .supervisor imsicHart _ rfl rfl (by decide) twoMessages⟩

/-- With identities 1 and 2 pending and enabled, the read reports 2. -/
theorem imsic_reports_larger :
    let vm := final (aiaStep .supervisor) imsicHart (twoMessages.take 4)
    vm.aia.map (fun files => (files true).eidelivery) = some 1 ∧
      vm.aia.map (fun files => (files true).eithreshold) = some 0 ∧
        vm.aia.map (fun files => (files true).word 0) = some 6 ∧
          (riscvGetAiaIrq vm true false).1 = 2 ∧
            ¬ AllSteps (aiaStep .supervisor) (AiaRight .supervisor) imsicHart twoMessages := by
  intro vm
  have delivery : vm.aia.map (fun files => (files true).eidelivery) = some 1 := by decide +kernel
  have threshold : vm.aia.map (fun files => (files true).eithreshold) = some 0 := by decide +kernel
  have word : vm.aia.map (fun files => (files true).word 0) = some 6 := by decide +kernel
  have reported : (riscvGetAiaIrq vm true false).1 = 2 := by decide +kernel
  refine ⟨delivery, threshold, word, reported, ?_⟩
  intro all
  have last : AiaRight .supervisor vm (.topei 0 .setbits) := all.2.2.2.2.1
  obtain ⟨files, aia, on⟩ := map_eq_some_iff.mp delivery
  rw [aia, map_some, some.injEq] at threshold word
  obtain ⟨top, -, -⟩ := last.2 files aia
  have first : (files true).Deliverable 1 := by
    refine ⟨on, le_refl 1, ⟨by decide, ?_⟩, .inl threshold⟩
    show ((files true).word 0).getLsbD 1 = true
    rw [word]
    decide
  rcases top with least | ⟨zero, -⟩
  · exact absurd (least.2 first) (by decide)
  · cases zero

end Rvvm
