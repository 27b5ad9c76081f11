import Rvvm.Cpu.Mmu
import Rvvm.Library.Align

/-! What device callbacks are handed by one dispatch: the operation as it is or, if its size or
alignment does not suit the device, window by window through a bounce buffer. -/
namespace Rvvm
open List Nat Option
open BitVec (ofNat ofNat_add toNat_and)

variable {δ : Type}

/-! Attaching a device. -/

def rvvmMmioOverlapCheck (addr1 size1 addr2 size2 : Addr) : Bool :=
  decide (addr1 < addr2 + size2) && decide (addr2 < addr1 + size1)

/-- `rvvm_mmio_zone_auto` leaves the address as it is. -/
def rvvmMmioZoneFree (mem : GuestRam) (devs : List (MmioDev δ)) (addr size : Addr) : Bool :=
  size == 0 || (!rvvmMmioOverlapCheck addr size mem.addr mem.size &&
    devs.all fun dev => !rvvmMmioOverlapCheck addr size dev.addr dev.size)

/-- The operation sizes of a description are bytes, zero for the default. -/
def opSizeOr (opSize fallback : Nat) : Nat := if opSize ≠ 0 then bitNextPow2 opSize else fallback

def rvvmAttachMmio (mem : GuestRam) (devs : List (MmioDev δ)) (desc : MmioDev δ) : Option (MmioDev δ) :=
  let minOpSize := opSizeOr desc.minOpSize 1
  let maxOpSize := opSizeOr desc.maxOpSize 8
  if minOpSize > maxOpSize ∨ minOpSize > 8 then none
  else if rvvmMmioZoneFree mem devs desc.addr desc.size then
    some { desc with minOpSize := minOpSize, maxOpSize := maxOpSize }
  else none

/-- The operation sizes of an attached device. -/
structure MmioDev.Attached (dev : MmioDev δ) : Prop where
  min : dev.minOpSize.isPowerOfTwo
  max : dev.maxOpSize.isPowerOfTwo
  ordered : dev.minOpSize ≤ dev.maxOpSize
  small : dev.minOpSize ≤ 8

theorem opSizeOr_isPowerOfTwo {fallback : Nat} (opSize : Nat) (power : fallback.isPowerOfTwo) :
    (opSizeOr opSize fallback).isPowerOfTwo := by
  unfold opSizeOr
  split
  case isTrue nonzero => exact ⟨opSize.log2, bitNextPow2_eq (Nat.pos_of_ne_zero nonzero)⟩
  case isFalse => exact power

theorem rvvmAttachMmio_attached {mem : GuestRam} {devs : List (MmioDev δ)} {desc dev : MmioDev δ}
    (attach : rvvmAttachMmio mem devs desc = some dev) : dev.Attached := by
  unfold rvvmAttachMmio at attach
  dsimp only at attach
  split at attach
  case isTrue => cases attach
  case isFalse valid =>
    split at attach
    case isTrue =>
      obtain rfl := some.inj attach
      rw [not_or, not_lt, not_lt] at valid
      exact ⟨opSizeOr_isPowerOfTwo _ ⟨0, rfl⟩, opSizeOr_isPowerOfTwo _ ⟨3, rfl⟩, valid.1, valid.2⟩
    case isFalse => cases attach

/-! The callbacks a device sees. -/

structure MmioCall where
  offset : Addr
  size : Nat
  deriving DecidableEq, Repr

/-- A callback that also records what it was handed. -/
def MmioHandler.logged (handler : MmioHandler δ) : MmioHandler (δ × List MmioCall) :=
  fun devices data offset size =>
    let (ok, data, after) := handler devices.1 data offset size
    (ok, data, (after, devices.2 ++ [⟨offset, size⟩]))

def MmioDev.logged (dev : MmioDev δ) : MmioDev (δ × List MmioCall) :=
  { addr := dev.addr
    size := dev.size
    minOpSize := dev.minOpSize
    maxOpSize := dev.maxOpSize
    mapping := dev.mapping
    read := dev.read.map MmioHandler.logged
    write := dev.write.map MmioHandler.logged }

def MmioDev.calls (dev : MmioDev δ) (devices : δ) (data : List Byte) (offset : Addr) (access : Access) :
    List MmioCall :=
  (riscvMmioCall dev.logged (devices, []) data offset data.length access).2.2

structure MmioCall.Allowed (call : MmioCall) (dev : MmioDev δ) : Prop where
  power : call.size.isPowerOfTwo
  atLeast : dev.minOpSize ≤ call.size
  atMost : call.size ≤ dev.maxOpSize
  aligned : call.size ∣ call.offset.toNat
  inside : call.offset.toNat + call.size ≤ dev.size.toNat

/-- A device of the same interface, whatever its callbacks do. -/
structure MmioDev.Models (dev other : MmioDev δ) : Prop where
  size : other.size = dev.size
  minOpSize : other.minOpSize = dev.minOpSize
  maxOpSize : other.maxOpSize = dev.maxOpSize
  mapping : other.mapping = dev.mapping
  read : other.read.isSome = dev.read.isSome
  write : other.write.isSome = dev.write.isSome

/-- A dispatch is sound for a device interface: its callbacks are allowed, and so is the copy of
a direct mapping. -/
structure MmioDev.Guarded (dev : MmioDev δ) (offset : Addr) (size : Nat) (access : Access) : Prop where
  calls : ∀ other, dev.Models other → ∀ devices (data : List Byte), data.length = size →
    ∀ call ∈ other.calls devices data offset access, call.Allowed dev
  copy : dev.mapping.isSome → offset.toNat + size ≤ dev.size.toNat

def MmioDev.opAlign (dev : MmioDev δ) (size : Nat) : Nat :=
  if size < dev.minOpSize then dev.minOpSize else if size > dev.maxOpSize then dev.maxOpSize else size

def mmioBase (offset : Addr) (align : Nat) : Addr := offset &&& ~~~ (ofNat 64 align - 1)

/-- Window `k` of the loop holds a byte of the access. A device that cannot be read sees only
the windows that the access covers, up to the first that it does not. -/
def Window (readable : Prop) (align size diff k : Nat) : Prop :=
  k * align < diff + size ∧ (readable ∨ diff = 0 ∧ (k + 1) * align ≤ size)

section
variable {readable : Prop} {align size diff : Nat}

theorem window_zero (some : 0 < size) :
    Window readable align size diff 0 ↔ readable ∨ diff = 0 ∧ align ≤ size := by
  unfold Window
  rw [zero_add, one_mul]
  exact and_iff_right (by omega)

theorem window_succ {k : Nat} (inside : diff < align)
    (entered : readable ∨ diff = 0 ∧ align ≤ size) :
    Window readable align size diff (k + 1) ↔
      Window readable align (size - if align - diff > size then size else align - diff) 0 k := by
  unfold Window
  rw [succ_mul (k + 1), succ_mul k]
  by_cases can : readable
  · simp only [can, true_or, and_true]
    split <;> omega
  · simp only [can, false_or, true_and] at entered ⊢
    rw [if_neg (by omega)]
    omega

end

section Realign
variable {γ : Type} (dev : MmioDev γ) (access : Access) (align : Nat)

/-- A device that is read, or can be read back for a partial write. -/
def Readable : Prop := access ≠ .write ∨ dev.read.isSome

/-- What every callback of a window keeps holds after the loop. -/
theorem mmioRealign_invariant (Inv : γ → Prop) (fuel size : Nat) (offset : Addr) (diff dest : Nat)
    (tmp data : List Byte) (devices : γ) (inside : diff < align)
    (step : ∀ k, Window (Readable dev access) align size diff k → ∀ handler,
      handler ∈ dev.read ∨ handler ∈ dev.write → ∀ s buffer, Inv s →
        Inv (handler s buffer (offset + ofNat 64 (k * align)) align).2.2)
    (start : Inv devices) :
    Inv (mmioRealign dev access align fuel size offset diff dest tmp data devices).2.2 := by
  induction fuel generalizing size offset diff dest tmp data devices with
  | zero => exact start
  | succ fuel ih =>
    rw [mmioRealign]
    split
    case isTrue => exact start
    case isFalse nonempty =>
      dsimp only
      generalize reach : (if align - diff > size then size else align - diff) = taken
      have first (handler : MmioHandler γ) (mine : handler ∈ dev.read ∨ handler ∈ dev.write)
          (entered : Readable dev access ∨ diff = 0 ∧ align ≤ size) (s : γ) (buffer : List Byte)
          (holds : Inv s) : Inv (handler s buffer offset align).2.2 := by
        have kept := step 0 ((window_zero (by omega)).mpr entered) handler mine s buffer holds
        rwa [zero_mul, BitVec.add_zero] at kept
      have rest (entered : Readable dev access ∨ diff = 0 ∧ align ≤ size) (tmp data : List Byte) (s : γ)
          (holds : Inv s) : Inv (mmioRealign dev access align fuel (size - taken)
            (offset + ofNat 64 align) 0 (dest + taken) tmp data s).2.2 := by
        refine ih _ _ _ _ _ _ _ (by omega) ?_ holds
        intro k window handler mine s buffer holds
        rw [← reach] at window
        have kept := step (k + 1) ((window_succ inside entered).mpr window) handler mine s buffer holds
        rwa [succ_mul, add_comm (k * align), ofNat_add, ← BitVec.add_assoc] at kept
      split
      next d failed =>
        split at failed
        · split at failed
          · obtain rfl := congrArg (·.2.2) failed
            exact start
          next read reads =>
            have kept := first read (.inl reads) (.inl (.inr (by rw [reads]; rfl))) devices tmp start
            rwa [failed] at kept
        · cases failed
      next tmp' s fetched =>
        obtain ⟨entered, holds⟩ : (Readable dev access ∨ diff = 0 ∧ align ≤ size) ∧ Inv s := by
          split at fetched
          · split at fetched
            · cases fetched
            next read reads =>
              have entered : Readable dev access := .inr (by rw [reads]; rfl)
              have kept := first read (.inl reads) (.inl entered) devices tmp start
              rw [fetched] at kept
              exact ⟨.inl entered, kept⟩
          next needs =>
            cases fetched
            push Not at needs
            refine ⟨.inr ⟨needs.2.1, ?_⟩, start⟩
            split at reach <;> omega
        split
        · split
          · exact holds
          next write writes =>
            have stored := first write (.inr writes) entered s
              (spliceAt tmp' diff ((data.drop dest).take taken)) holds
            split
            next stuck => rwa [stuck] at stored
            next done =>
              rw [done] at stored
              exact rest entered _ data _ stored
        · exact rest entered _ _ s holds

end Realign

/-- The device with callbacks that succeed and leave the buffer and the state as they are. -/
def MmioDev.obliging (dev : MmioDev δ) : MmioDev δ :=
  { dev with
    read := dev.read.map fun _ devices data _ _ => (true, data, devices)
    write := dev.write.map fun _ devices data _ _ => (true, data, devices) }

theorem MmioDev.models_obliging (dev : MmioDev δ) : dev.Models dev.obliging :=
  ⟨rfl, rfl, rfl, rfl, isSome_map, isSome_map⟩

def MmioDev.handler (dev : MmioDev δ) (access : Access) : Option (MmioHandler δ) :=
  if access = .write then dev.write else dev.read

section Obliging
variable (dev : MmioDev δ) (access : Access) {align : Nat}

def recordCall : MmioHandler (δ × List MmioCall) :=
  fun devices data offset size => (true, data, (devices.1, devices.2 ++ [⟨offset, size⟩]))

theorem obliging_read : dev.obliging.logged.read = dev.read.map fun _ => recordCall := by
  change (dev.read.map _).map _ = _
  rw [Option.map_map]
  rfl

theorem obliging_write : dev.obliging.logged.write = dev.write.map fun _ => recordCall := by
  change (dev.write.map _).map _ = _
  rw [Option.map_map]
  rfl

theorem MmioDev.mem_obliging {handler : MmioHandler (δ × List MmioCall)}
    (mine : handler ∈ dev.obliging.logged.read ∨ handler ∈ dev.obliging.logged.write) :
    handler = recordCall := by
  rw [obliging_read, obliging_write] at mine
  rcases mine with mine | mine <;>
  · obtain ⟨_, -, rfl⟩ := map_eq_some_iff.mp mine
    rfl

theorem mmioRealign_round {fuel size : Nat} (offset : Addr) {diff : Nat} (dest : Nat)
    (tmp data : List Byte) (devices : δ) (log : List MmioCall) (nonempty : size ≠ 0)
    (answers : (dev.handler access).isSome) (entered : Readable dev access ∨ diff = 0 ∧ align ≤ size) :
    ∃ tmp' data' log', ⟨offset, align⟩ ∈ log' ∧
      mmioRealign dev.obliging.logged access align (fuel + 1) size offset diff dest tmp data (devices, log) =
        mmioRealign dev.obliging.logged access align fuel
          (size - if align - diff > size then size else align - diff) (offset + ofNat 64 align) 0
          (dest + if align - diff > size then size else align - diff) tmp' data' (devices, log') := by
  rw [mmioRealign, if_neg nonempty]
  dsimp only
  generalize reach : (if align - diff > size then size else align - diff) = taken
  rw [obliging_read, obliging_write]
  by_cases stores : access = .write
  · subst stores
    obtain ⟨write, writes⟩ := isSome_iff_exists.mp answers
    change dev.write = some write at writes
    rw [writes]
    by_cases partly : diff ≠ 0 ∨ taken ≠ align
    · have reads : dev.read.isSome := by
        rcases entered with (fetches | reads) | ⟨rfl, fits⟩
        · exact absurd rfl fetches
        · exact reads
        · rw [Nat.sub_zero, if_neg (by omega)] at reach
          omega
      obtain ⟨read, reads⟩ := isSome_iff_exists.mp reads
      rw [if_pos (.inr partly), reads]
      exact ⟨_, _, log ++ [⟨offset, align⟩] ++ [⟨offset, align⟩], by simp, rfl⟩
    · rw [if_neg (by simpa using partly)]
      exact ⟨_, _, log ++ [⟨offset, align⟩], by simp, rfl⟩
  · obtain ⟨read, reads⟩ := isSome_iff_exists.mp answers
    rw [MmioDev.handler, if_neg stores] at reads
    rw [reads, if_pos (.inl stores)]
    simp only [if_neg stores]
    exact ⟨_, _, log ++ [⟨offset, align⟩], by simp, rfl⟩

theorem mmioRealign_obliging (fuel size : Nat) (offset : Addr) (diff dest : Nat) (tmp data : List Byte)
    (devices : δ) (log : List MmioCall) (enough : size ≤ fuel) (inside : diff < align)
    (clean : size = 0 → diff = 0) (answers : (dev.handler access).isSome) (k : Nat)
    (window : Window (Readable dev access) align size diff k) :
    ⟨offset + ofNat 64 (k * align), align⟩ ∈
      (mmioRealign dev.obliging.logged access align fuel size offset diff dest tmp data (devices, log)).2.2.2 := by
  induction fuel generalizing size offset diff dest tmp data log k with
  | zero =>
    have start := window.1
    omega
  | succ fuel ih =>
    have nonempty : size ≠ 0 := by
      intro empty
      have start := window.1
      omega
    have entered : Readable dev access ∨ diff = 0 ∧ align ≤ size := by
      refine window.2.imp_right fun covered => ⟨covered.1, le_trans ?_ covered.2⟩
      exact Nat.le_mul_of_pos_left align (Nat.succ_pos k)
    obtain ⟨tmp', data', log', recorded, round⟩ := mmioRealign_round dev access offset dest tmp data devices
      log nonempty answers entered
    rw [round]
    cases k with
    | zero =>
      rw [zero_mul, BitVec.add_zero]
      refine mmioRealign_invariant _ access align (fun s => (⟨offset, align⟩ : MmioCall) ∈ s.2) _ _ _ _ _ _ _
        (devices, log') (zero_lt_of_lt inside) ?_ recorded
      intro k _ handler mine s buffer kept
      obtain rfl := dev.mem_obliging mine
      exact mem_append_left _ kept
    | succ k =>
      rw [window_succ inside entered] at window
      have later := ih _ (offset + ofNat 64 align) 0
        (dest + if align - diff > size then size else align - diff) tmp' data' log' (by split <;> omega)
        (by omega) (fun _ => rfl) k window
      rwa [BitVec.add_assoc, ← ofNat_add, add_comm align, ← succ_mul] at later

end Obliging

/-- The operation goes to the callback as it is. -/
def MmioDev.Direct (dev : MmioDev δ) (offset : Addr) (size : Nat) : Prop :=
  size ≤ dev.maxOpSize ∧ dev.minOpSize ≤ size ∧ offset &&& (ofNat 64 size - 1) = 0

instance (dev : MmioDev δ) (offset : Addr) (size : Nat) : Decidable (dev.Direct offset size) := by
  unfold MmioDev.Direct
  infer_instance

/-- A dispatch that a device of this interface may be given: the operation, or each of its
windows, has a power of two as its size and ends within the region. -/
def MmioDev.Fits (dev : MmioDev δ) (offset : Addr) (size : Nat) (access : Access) : Prop :=
  (dev.handler access).isSome →
    if dev.Direct offset size then size.isPowerOfTwo ∧ offset.toNat + size ≤ dev.size.toNat
    else
      let align := dev.opAlign size
      let base := mmioBase offset align
      ∀ k, Window (Readable dev access) align size (offset - base).toNat k →
        align.isPowerOfTwo ∧ (base + ofNat 64 (k * align)).toNat + align ≤ dev.size.toNat

theorem MmioDev.Attached.opAlign_bounds {dev : MmioDev δ} (attached : dev.Attached) {size : Nat}
    (positive : 0 < size) (most : size ≤ 8) : 0 < dev.opAlign size ∧ dev.opAlign size ≤ 8 ∧
      dev.minOpSize ≤ dev.opAlign size ∧ dev.opAlign size ≤ dev.maxOpSize := by
  have ordered := attached.ordered
  have small := attached.small
  have minPos := pos_of_isPowerOfTwo attached.min
  unfold opAlign
  split
  · omega
  · split <;> omega

section Masks
variable (offset : Addr) {align : Nat}

theorem toNat_pred (positive : 0 < align) (most : align ≤ 8) :
    (ofNat 64 align - 1).toNat = align - 1 := by
  interval_cases align <;> rfl

theorem sub_mmioBase : offset - mmioBase offset align = offset &&& (ofNat 64 align - 1) := by
  rw [mmioBase, BitVec.sub_eq_iff_eq_add, BitVec.add_comm, Align.and_not_add_and]

theorem toNat_and_pred (power : align.isPowerOfTwo) (most : align ≤ 8) :
    (offset &&& (ofNat 64 align - 1)).toNat = offset.toNat % align := by
  rw [toNat_and, toNat_pred (pos_of_isPowerOfTwo power) most]
  obtain ⟨k, rfl⟩ := power
  exact and_two_pow_sub_one_eq_mod _ _

theorem mmioBase_diff_lt (positive : 0 < align) (most : align ≤ 8) :
    (offset - mmioBase offset align).toNat < align := by
  rw [sub_mmioBase, toNat_and, toNat_pred positive most]
  have le := @and_le_right offset.toNat (align - 1)
  omega

section
variable (power : align.isPowerOfTwo) (most : align ≤ 8)
include power most

theorem dvd_of_and_pred
    (clear : offset &&& (ofNat 64 align - 1) = 0) : align ∣ offset.toNat := by
  have rest := toNat_and_pred offset power most
  rw [clear] at rest
  exact dvd_of_mod_eq_zero rest.symm

theorem dvd_mmioBase :
    align ∣ (mmioBase offset align).toNat := by
  refine dvd_of_and_pred _ power most ?_
  unfold mmioBase
  generalize ofNat 64 align - 1 = mask
  apply BitVec.eq_of_getLsbD_eq
  intro b below
  cases set : mask.getLsbD b <;> simp [set]

theorem dvd_window (k : Nat) :
    align ∣ (mmioBase offset align + ofNat 64 (k * align)).toNat := by
  have word : align ∣ 2 ^ 64 := by
    obtain ⟨j, rfl⟩ := power
    refine pow_dvd_pow 2 (le_of_lt ?_)
    have small : 2 ^ j < 2 ^ 64 := by omega
    exact (Nat.pow_lt_pow_iff_right (by decide)).mp small
  rw [BitVec.toNat_add, BitVec.toNat_ofNat, dvd_mod_iff word]
  refine dvd_add (dvd_mmioBase offset power most) ?_
  rw [dvd_mod_iff word]
  exact dvd_mul_left align k
end

end Masks

section
variable {dev other : MmioDev δ} (models : dev.Models other) (access : Access)
include models access

theorem MmioDev.Models.handler :
    (other.handler access).isSome = (dev.handler access).isSome := by
  unfold MmioDev.handler
  split
  · exact models.write
  · exact models.read

theorem MmioDev.Models.readable :
    Readable other.logged access = Readable dev access := by
  unfold Readable
  rw [← models.read]
  simp [MmioDev.logged]
end

theorem MmioDev.mem_logged (dev : MmioDev δ) {handler : MmioHandler (δ × List MmioCall)}
    (mine : handler ∈ dev.logged.read ∨ handler ∈ dev.logged.write) :
    ∃ inner, handler = MmioHandler.logged inner := by
  rcases mine with mine | mine <;>
  · obtain ⟨inner, -, rfl⟩ := map_eq_some_iff.mp mine
    exact ⟨inner, rfl⟩

section Dispatch
variable {dev : MmioDev δ} (attached : dev.Attached) (offset : Addr) {size : Nat} (positive : 0 < size)
  (most : size ≤ 8) (access : Access)

theorem logged_handler (other : MmioDev δ) :
    other.logged.handler access = (other.handler access).map MmioHandler.logged := by
  unfold MmioDev.handler
  split <;> rfl

section
variable {γ : Type} (other : MmioDev γ) (devices : γ) (data : List Byte) (count : Nat)

theorem riscvMmioCall_devices :
    (riscvMmioCall other devices data offset count access).2 =
      match other.handler access with
      | none => devices
      | some rwfunc =>
        if other.Direct offset count then (rwfunc devices data offset count).2.2
        else (riscvMmioUnalignedOp other devices data offset count access).2.2 := by
  unfold riscvMmioCall MmioDev.handler
  cases if access = .write then other.write else other.read with
  | none => rfl
  | some rwfunc =>
    by_cases direct : other.Direct offset count
    · exact (congrArg Prod.snd (if_pos direct)).trans (if_pos direct).symm
    · exact (congrArg Prod.snd (if_neg direct)).trans (if_neg direct).symm

theorem riscvMmioUnalignedOp_eq (buffered : other.opAlign count ≤ 8) :
    riscvMmioUnalignedOp other devices data offset count access =
      mmioRealign other access (other.opAlign count) count count (mmioBase offset (other.opAlign count))
        (offset - mmioBase offset (other.opAlign count)).toNat 0 (replicate 16 0) data devices := by
  exact if_neg (show ¬ other.opAlign count > 16 by omega)

end

include attached positive most

theorem allowed_of_fits (fits : dev.Fits offset size access) {other : MmioDev δ} (models : dev.Models other)
    {devices : δ} {data : List Byte} (sized : data.length = size) {call : MmioCall}
    (made : call ∈ other.calls devices data offset access) : call.Allowed dev := by
  obtain ⟨alignPos, align8, atLeast, atMost⟩ := attached.opAlign_bounds positive most
  have sameAlign : other.logged.opAlign size = dev.opAlign size := by
    unfold MmioDev.opAlign
    rw [← models.minOpSize, ← models.maxOpSize]
    rfl
  have sameDirect : other.logged.Direct offset size ↔ dev.Direct offset size := by
    unfold MmioDev.Direct
    rw [← models.minOpSize, ← models.maxOpSize]
    rfl
  unfold MmioDev.calls at made
  rw [riscvMmioCall_devices, logged_handler, sized] at made
  cases answers : other.handler access with
  | none =>
    rw [answers] at made
    exact absurd made not_mem_nil
  | some handler =>
    rw [answers] at made
    have fit := fits (by rw [← models.handler, answers]; rfl)
    by_cases direct : dev.Direct offset size
    · rw [if_pos direct] at fit
      dsimp only [Option.map] at made
      rw [if_pos (sameDirect.mpr direct)] at made
      obtain rfl := mem_singleton.mp made
      exact ⟨fit.1, direct.2.1, direct.1, dvd_of_and_pred offset fit.1 most direct.2.2, fit.2⟩
    · rw [if_neg direct] at fit
      dsimp only [Option.map] at made
      rw [if_neg (sameDirect.not.mpr direct), riscvMmioUnalignedOp_eq offset access _ _ _ _ (sameAlign ▸ align8),
        sameAlign] at made
      refine mmioRealign_invariant other.logged access _ (fun s => ∀ c ∈ s.2, c.Allowed dev) _ _ _ _ _ _ _ _
        (mmioBase_diff_lt offset alignPos align8) ?_ (fun c none => absurd none not_mem_nil) call made
      intro k window handler mine s buffer holds c recorded
      obtain ⟨inner, rfl⟩ := other.mem_logged mine
      rcases mem_append.mp recorded with before | now
      · exact holds c before
      · obtain rfl := mem_singleton.mp now
        obtain ⟨power, inside⟩ := fit k ((models.readable access) ▸ window)
        exact ⟨power, atLeast, atMost, dvd_window offset power align8 k, inside⟩

theorem fits_of_guarded [Nonempty δ] (guarded : dev.Guarded offset size access) :
    dev.Fits offset size access := by
  obtain ⟨devices⟩ := ‹Nonempty δ›
  obtain ⟨alignPos, align8, -, -⟩ := attached.opAlign_bounds positive most
  have allowed := guarded.calls dev.obliging dev.models_obliging devices (replicate size 0)
    (length_replicate ..)
  unfold MmioDev.calls at allowed
  rw [riscvMmioCall_devices, length_replicate, logged_handler] at allowed
  intro answers
  obtain ⟨handler, here⟩ := isSome_iff_exists.mp
    ((dev.models_obliging.handler access).trans answers)
  rw [here] at allowed
  dsimp only [Option.map] at allowed
  by_cases direct : dev.Direct offset size
  · rw [if_pos direct]
    have given : dev.obliging.logged.Direct offset size := direct
    rw [if_pos given] at allowed
    have only := allowed ⟨offset, size⟩ (mem_singleton_self _)
    exact ⟨only.power, only.inside⟩
  · rw [if_neg direct]
    have given : ¬ dev.obliging.logged.Direct offset size := direct
    have buffered : dev.obliging.logged.opAlign size ≤ 8 := align8
    rw [if_neg given, riscvMmioUnalignedOp_eq offset access _ _ _ _ buffered] at allowed
    dsimp only
    intro k window
    have each := allowed _ (mmioRealign_obliging dev access size size _ _ 0 _ _ devices [] le_rfl
      (mmioBase_diff_lt offset alignPos align8) (fun empty => absurd empty positive.ne') answers k window)
    exact ⟨each.power, each.inside⟩

/-- The callbacks of a dispatch and the copy of a mapping are allowed, for every device model
behind the interface, exactly when the dispatch fits. -/
theorem MmioDev.guarded_iff [Nonempty δ] :
    dev.Guarded offset size access ↔
      dev.Fits offset size access ∧ (dev.mapping.isSome → offset.toNat + size ≤ dev.size.toNat) := by
  refine ⟨fun guarded => ⟨fits_of_guarded attached offset positive most access guarded, guarded.copy⟩,
    fun both => ⟨?_, both.2⟩⟩
  rintro other models devices data rfl call made
  exact allowed_of_fits attached offset positive most access both.1 models rfl made

end Dispatch

end Rvvm
