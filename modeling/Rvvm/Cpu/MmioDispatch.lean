import Rvvm.Cpu.MmuFrame
import Rvvm.Cpu.MmioCalls
import Rvvm.Cpu.Csr

/-! The dispatches of a whole access. An access outside RAM is made in one or two page parts, and
each part goes to the device that claims its first byte. -/
namespace Rvvm
open List

variable {δ : Type}

/-- An access within one page, on the hart that makes it. -/
structure MmuPart (δ : Type) where
  vm : Hart δ
  vaddr : Addr
  data : List Byte

/-- The page parts of an access: the second is made if the first succeeds. -/
def riscvMmuParts (vm : Hart δ) (vaddr : Addr) (data : List Byte) (attr : MmuAttr) (access : Access) :
    List (MmuPart δ) :=
  if riscvBlockInPage vaddr data.length then [⟨vm, vaddr, data⟩]
  else
    let part := 0x1000 - (vaddr &&& 0xFFF#64).toNat
    match riscvMmuOpPage vm vaddr (data.take part) attr access with
    | (none, _) => [⟨vm, vaddr, data.take part⟩]
    | (some _, next) => [⟨vm, vaddr, data.take part⟩, ⟨next, vaddr + BitVec.ofNat 64 part, data.drop part⟩]

/-- The device and offset that a part is dispatched to, if its address is not in RAM. -/
def MmuPart.target (part : MmuPart δ) (attr : MmuAttr) (access : Access) : Option (MmioDev δ × Addr) :=
  match riscvMmuTranslate part.vm part.vaddr (if attr.noProt then debugAccess else access.mask) with
  | (none, _) => none
  | (some paddr, vm) =>
    match riscvPhysAccess vm.mem paddr with
    | some _ => none
    | none => (vm.mmioDevs.find? fun dev => dev.contains paddr).map fun dev => (dev, paddr - dev.addr)

def MmuPart.serve (part : MmuPart δ) (attr : MmuAttr) (access : Access) (devices : δ) : δ :=
  match part.target attr access with
  | none => devices
  | some (dev, offset) => (riscvMmioCall dev devices part.data offset part.data.length access).2

theorem riscvMmioScan_devices (vm : Hart δ) (vaddr paddr : Addr) (data : List Byte) (access : Access) :
    (riscvMmioScan vm vaddr paddr data access).2.devices =
      match vm.mmioDevs.find? fun dev => dev.contains paddr with
      | none => vm.devices
      | some dev => (riscvMmioCall dev vm.devices data (paddr - dev.addr) data.length access).2 := by
  unfold riscvMmioScan
  cases vm.mmioDevs.find? fun dev => dev.contains paddr with
  | none => rfl
  | some dev =>
    dsimp only
    cases dev.mapping with
    | none => rfl
    | some mapping =>
      dsimp only
      split <;> split <;> rfl

theorem riscvMmuFault_data (vm : Hart δ) (cause : TrapCause) (vaddr : Addr) (attr : MmuAttr) :
    SameData (riscvMmuFault vm cause vaddr attr) vm := by
  unfold riscvMmuFault
  split
  · exact .refl vm
  · exact riscvTrap_data vm cause vaddr

theorem riscvMmuTranslate_host (vm : Hart δ) (vaddr : Addr) (access : BitVec 64) :
    (riscvMmuTranslate vm vaddr access).2 =
      { vm with host := (riscvMmuTranslate vm vaddr access).2.host } := by
  unfold riscvMmuTranslate
  dsimp only
  split <;> rfl

theorem riscvRamAccess_devices (vm : Hart δ) (vaddr paddr ptr : Addr) (data : List Byte) (access : Access) :
    (riscvRamAccess vm vaddr paddr ptr data access).2.devices = vm.devices := by
  unfold riscvRamAccess
  split <;> rfl

namespace MmuPart
variable (part : MmuPart δ) (attr : MmuAttr) (access : Access)

def after : Hart δ := (riscvMmuOpPage part.vm part.vaddr part.data attr access).2

/-- The hart before a fault of the part is taken. -/
def reached : Hart δ :=
  match riscvMmuTranslate part.vm part.vaddr (if attr.noProt then debugAccess else access.mask) with
  | (none, vm) => vm
  | (some paddr, vm) =>
    match riscvPhysAccess vm.mem paddr with
    | some ptr => (riscvRamAccess vm part.vaddr paddr ptr part.data access).2
    | none => (riscvMmioScan vm part.vaddr paddr part.data access).2

theorem after_data : SameData (part.after attr access) (part.reached attr access) := by
  unfold after reached riscvMmuOpPage
  obtain ⟨_ | paddr, mid⟩ := riscvMmuTranslate part.vm part.vaddr _
  · exact riscvMmuFault_data mid access.pagefault part.vaddr attr
  · dsimp only
    cases riscvPhysAccess mid.mem paddr with
    | some ptr => exact .refl _
    | none =>
      obtain ⟨_ | read, last⟩ := riscvMmioScan mid part.vaddr paddr part.data access
      · dsimp only
        split
        · exact .refl _
        · exact riscvMmuFault_data last access.physFault part.vaddr attr
      · exact .refl _

theorem after_devices : (part.after attr access).devices = part.serve attr access part.vm.devices := by
  rw [(part.after_data attr access).devices]
  unfold reached serve target
  generalize (if attr.noProt then debugAccess else access.mask) = mask
  have kept := congrArg Hart.devices (riscvMmuTranslate_host part.vm part.vaddr mask)
  generalize riscvMmuTranslate part.vm part.vaddr mask = result at kept ⊢
  obtain ⟨_ | paddr, mid⟩ := result
  · exact kept
  · dsimp only at kept ⊢
    rw [← kept]
    cases riscvPhysAccess mid.mem paddr with
    | some ptr => exact riscvRamAccess_devices mid part.vaddr paddr ptr part.data access
    | none =>
      rw [riscvMmioScan_devices]
      cases mid.mmioDevs.find? fun dev => dev.contains paddr <;> rfl

end MmuPart

section
variable (vm : Hart δ) (vaddr : Addr) (data : List Byte) (attr : MmuAttr) (access : Access)
include vm vaddr data attr access

/-- An access ends where its last part does. -/
theorem riscvMmuOp_parts :
    (∃ part : MmuPart δ, riscvMmuParts vm vaddr data attr access = [part] ∧ part.vm = vm ∧
        (riscvMmuOp vm vaddr data attr access).2 = part.after attr access) ∨
      ∃ one two : MmuPart δ, riscvMmuParts vm vaddr data attr access = [one, two] ∧ one.vm = vm ∧
        two.vm = one.after attr access ∧ (riscvMmuOp vm vaddr data attr access).2 = two.after attr access := by
  unfold riscvMmuOp riscvMmuParts
  by_cases inPage : riscvBlockInPage vaddr data.length = true
  · rw [if_pos inPage, if_pos inPage]
    exact .inl ⟨_, rfl, rfl, rfl⟩
  · rw [if_neg inPage, if_neg inPage]
    dsimp only
    generalize 0x1000 - (vaddr &&& 0xFFF#64).toNat = count
    cases first : riscvMmuOpPage vm vaddr (data.take count) attr access with
    | mk read mid =>
      have between : mid = (⟨vm, vaddr, data.take count⟩ : MmuPart δ).after attr access := by
        rw [MmuPart.after, first]
      cases read with
      | none => exact .inl ⟨_, rfl, rfl, between⟩
      | some read =>
        refine .inr ⟨_, _, rfl, rfl, between, ?_⟩
        dsimp only
        rw [MmuPart.after]
        generalize riscvMmuOpPage mid _ _ attr access = second
        obtain ⟨_ | rest, last⟩ := second <;> rfl

theorem riscvMmuOp_devices :
    (riscvMmuOp vm vaddr data attr access).2.devices =
      (riscvMmuParts vm vaddr data attr access).foldl (fun devices part => part.serve attr access devices)
        vm.devices := by
  rcases riscvMmuOp_parts vm vaddr data attr access with
    ⟨part, parts, rfl, ends⟩ | ⟨one, two, parts, rfl, between, ends⟩
  · rw [parts, ends]
    exact part.after_devices attr access
  · rw [parts, ends, two.after_devices, between, one.after_devices]
    rfl

theorem riscvMmuOpPage_mmioDevs :
    (riscvMmuOpPage vm vaddr data attr access).2.mmioDevs = vm.mmioDevs := by
  have outcome := riscvMmuOpPage_result vm vaddr data attr access
  generalize riscvMmuOpPage vm vaddr data attr access = result at outcome ⊢
  cases outcome with
  | done value memory | refused memory =>
    rw [memory]
  | faulted memory cause tval may =>
    rw [(riscvTrap_data _ cause tval).mmioDevs, memory]
end

theorem parts_spec {vm : Hart δ} {vaddr : Addr} {data : List Byte} {attr : MmuAttr} {access : Access}
    (nonempty : 0 < data.length) (most : data.length ≤ 8) {part : MmuPart δ}
    (mine : part ∈ riscvMmuParts vm vaddr data attr access) :
    0 < part.data.length ∧ part.data.length ≤ 8 ∧ part.vm.mmioDevs = vm.mmioDevs := by
  unfold riscvMmuParts at mine
  split at mine
  case isTrue =>
    obtain rfl := mem_singleton.mp mine
    exact ⟨nonempty, most, rfl⟩
  case isFalse crosses =>
    have offset : (vaddr &&& 0xFFF#64).toNat < 0x1000 := by
      exact lt_of_le_of_lt Nat.and_le_right (by decide)
    simp only [riscvBlockInPage, decide_eq_true_eq, not_le] at crosses
    dsimp only at mine
    generalize length : 0x1000 - (vaddr &&& 0xFFF#64).toNat = count at mine
    have mmioDevs := riscvMmuOpPage_mmioDevs vm vaddr (data.take count) attr access
    have taken : 0 < (data.take count).length ∧ (data.take count).length ≤ 8 := by
      rw [length_take]
      omega
    generalize riscvMmuOpPage vm vaddr (data.take count) attr access = result at mine mmioDevs
    obtain ⟨_ | bytes, mid⟩ := result
    · obtain rfl := mem_singleton.mp mine
      exact ⟨taken.1, taken.2, rfl⟩
    · rcases mem_cons.mp mine with rfl | mine
      · exact ⟨taken.1, taken.2, rfl⟩
      · obtain rfl := mem_singleton.mp mine
        refine ⟨?_, ?_, mmioDevs⟩ <;>
        · rw [length_drop]
          omega

theorem target_mem {part : MmuPart δ} {attr : MmuAttr} {access : Access} {dev : MmioDev δ} {offset : Addr}
    (found : part.target attr access = some (dev, offset)) : dev ∈ part.vm.mmioDevs := by
  unfold MmuPart.target at found
  generalize (if attr.noProt then debugAccess else access.mask) = mask at found
  have kept := congrArg Hart.mmioDevs (riscvMmuTranslate_host part.vm part.vaddr mask)
  generalize riscvMmuTranslate part.vm part.vaddr mask = result at kept found
  obtain ⟨_ | paddr, mid⟩ := result
  · cases found
  · dsimp only at kept found
    cases inRam : riscvPhysAccess mid.mem paddr with
    | some ptr =>
      rw [inRam] at found
      cases found
    | none =>
      rw [inRam] at found
      obtain ⟨_, here, same⟩ := Option.map_eq_some_iff.mp found
      obtain ⟨rfl, -⟩ := Prod.mk.inj same
      rw [← kept]
      exact mem_of_find?_eq_some here

section Discipline
variable (vm : Hart δ) (vaddr : Addr) (data : List Byte) (attr : MmuAttr) (access : Access)

/-- Every dispatch that an access makes is sound for the device it reaches. -/
def Disciplined : Prop :=
  ∀ part ∈ riscvMmuParts vm vaddr data attr access, ∀ target ∈ part.target attr access,
    target.1.Guarded target.2 part.data.length access

/-- Each part has a size the device takes, or one that is resized, and ends within the region. -/
def WellPlaced : Prop :=
  ∀ part ∈ riscvMmuParts vm vaddr data attr access, ∀ target ∈ part.target attr access,
    target.1.Fits target.2 part.data.length access ∧
      (target.1.mapping.isSome → target.2.toNat + part.data.length ≤ target.1.size.toNat)

/-- An access is disciplined exactly when its parts are well placed. -/
theorem mmio_disciplined_iff (attached : ∀ dev ∈ vm.mmioDevs, dev.Attached) (sized : data.length ∈ [1, 2, 4, 8]) :
    Disciplined vm vaddr data attr access ↔ WellPlaced vm vaddr data attr access := by
  have bounds : 0 < data.length ∧ data.length ≤ 8 := by
    simp only [mem_cons, not_mem_nil, or_false] at sized
    omega
  have : Nonempty δ := ⟨vm.devices⟩
  refine forall₂_congr fun part mine => forall₂_congr fun target found => ?_
  obtain ⟨positive, most, mmioDevs⟩ := parts_spec bounds.1 bounds.2 mine
  have here : target.1.Attached := attached _ (mmioDevs ▸ target_mem found)
  exact MmioDev.guarded_iff here target.2 positive most access

end Discipline

def probe : MmioDev (List MmioCall) where
  addr := 0x1000
  size := 0x100C
  minOpSize := 1
  maxOpSize := 8
  mapping := none
  read := some fun seen data offset size => (true, data, seen ++ [⟨offset, size⟩])
  write := none

def probeHart : Hart (List MmioCall) := riscvHartInit .empty (fun _ => 0) [probe] [] true false

theorem mmio_disciplined_iff_probeHart :
    (∀ dev ∈ probeHart.mmioDevs, dev.Attached) ∧
      (Disciplined probeHart 0x1004 [0, 0, 0, 0] .plain .read ↔
        WellPlaced probeHart 0x1004 [0, 0, 0, 0] .plain .read) := by
  have attached : ∀ dev ∈ probeHart.mmioDevs, dev.Attached := by
    intro dev mine
    obtain rfl := mem_singleton.mp mine
    exact ⟨⟨0, rfl⟩, ⟨3, rfl⟩, by decide, by decide⟩
  exact ⟨attached, mmio_disciplined_iff probeHart 0x1004 [0, 0, 0, 0] .plain .read attached (by decide)⟩

/-- A load across a page boundary is handed on with three bytes; a load at the end of the region
reaches beyond it. -/
theorem mmio_undisciplined :
    ((riscvMmuOp probeHart 0x1FFF [0, 0, 0, 0] .plain .read).2.devices = [⟨0xFFF, 1⟩, ⟨0x1000, 3⟩] ∧
      ¬ MmioCall.Allowed ⟨0x1000, 3⟩ probe) ∧
    (riscvMmuOp probeHart 0x2008 (replicate 8 0) .plain .read).2.devices = [⟨0x1008, 8⟩] ∧
      ¬ MmioCall.Allowed ⟨0x1008, 8⟩ probe := by
  refine ⟨⟨by decide +kernel, fun allowed => ?_⟩, by decide +kernel, fun allowed => ?_⟩
  · obtain ⟨k, power⟩ := allowed.power
    rcases k with _ | _ | k
    · cases power
    · cases power
    · have four : 4 ∣ 3 := ⟨2 ^ k, by rw [show 3 = 2 ^ (k + 2) from power]; ring⟩
      exact absurd four (by decide)
  · exact absurd allowed.inside (by decide)

end Rvvm
