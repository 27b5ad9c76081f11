import Rvvm.Cpu.Translation
import Rvvm.Library.Runs

/-! What queries leave in memory: the translation of `riscv_mmu_virt_translate`, a translation that
faults, and an access of the debugger. -/
namespace Rvvm
open BitVec List Option

variable {δ : Type}

def riscvMmuOpPhys (vm : Hart δ) (vaddr : Addr) (attr : MmuAttr) (access : Access) : Option Addr × Hart δ :=
  match riscvMmuTranslate vm vaddr (if attr.noProt then debugAccess else access.mask) with
  | (some paddr, vm) => (some paddr, vm)
  | (none, vm) => (none, riscvMmuFault vm access.pagefault vaddr attr)

/-- The block is empty, so it never crosses a page. -/
def riscvMmuVirtTranslate (vm : Hart δ) (vaddr : Addr) (access : Access) : Option Addr × Hart δ :=
  riscvMmuOpPhys vm vaddr ⟨true, false⟩ access

/-- The entry that grants an access, where the walk leaves its accessed and dirty bits. -/
def Hart.granting (vm : Hart δ) (vaddr : Addr) (mask : BitVec 64) : Option Addr :=
  if vm.walks mask then
    (vm.lastEntry vaddr).bind fun last =>
      match vm.verdictAt vaddr mask last with
      | .leaf _ => some last.2
      | _ => none
  else none

/-! Translation. -/

section Translate
variable (vm : Hart δ) (vaddr : Addr) {mask : BitVec 64}

theorem update_pteAd (mode : SatpMode) (host : HostMem) (slot : Addr) {access : Access}
    (dirty : mask &&& 0x4#64 = if access = .write then 0x4#64 else 0#64) :
    mode.format.update host slot (pteAd (mode.format.read host slot) mask) = setAd host slot access := by
  have wide := (sv64_implements (show 3 ≤ 5 by decide)).rewrite host slot access mask dirty
  cases mode with
  | sv32 => exact sv32_implements.rewrite host slot access mask dirty
  | bare | sv39 | sv48 | sv57 => exact wide

theorem update_read (mode : SatpMode) (host : HostMem) (slot : Addr) :
    mode.format.update host slot (mode.format.read host slot) = host := by
  have wide := (sv64_implements (show 3 ≤ 5 by decide)).back host slot
  cases mode with
  | sv32 => exact sv32_implements.back host slot
  | bare | sv39 | sv48 | sv57 => exact wide

/-- A translation marks the entry that grants the access, and changes nothing else. -/
theorem riscvMmuTranslate_marks {access : Access}
    (dirty : vm.effectiveAccess mask &&& 0x4#64 = if access = .write then 0x4#64 else 0#64) :
    (riscvMmuTranslate vm vaddr mask).2 =
      { vm with host := (vm.granting vaddr mask).elim vm.host fun slot => setAd vm.host slot access } := by
  rw [riscvMmuTranslate_walks, Hart.granting]
  by_cases walks : vm.walks mask = true
  · rw [if_pos walks, if_pos walks, Hart.walked]
    cases vm.lastEntry vaddr with
    | none => rfl
    | some last =>
      rw [elim_some, bind_some]
      cases vm.verdictAt vaddr mask last with
      | leaf paddr =>
        have marked := update_pteAd vm.mmuMode vm.host last.2 dirty
        rw [PteFormat.conclude, elim_some, ← marked]
        by_cases same : vm.mmuMode.format.read vm.host last.2 =
            pteAd (vm.mmuMode.format.read vm.host last.2) (vm.effectiveAccess mask)
        · rw [if_neg (not_not.mpr same), ← same, update_read]
        · rw [if_pos same]
      | fault | stay | descend next => rfl
  · rw [if_neg walks, if_neg walks]
    rfl

theorem riscvMmuTranslate_refused (refused : (riscvMmuTranslate vm vaddr mask).1 = none) :
    (riscvMmuTranslate vm vaddr mask).2 = vm := by
  rw [riscvMmuTranslate_walks] at refused ⊢
  by_cases walks : vm.walks mask = true
  · rw [if_pos walks] at refused ⊢
    rw [Hart.walked] at refused ⊢
    cases found : vm.lastEntry vaddr with
    | none => rfl
    | some last =>
      rw [found, elim_some] at refused
      rw [elim_some]
      cases judged : vm.verdictAt vaddr mask last with
      | leaf paddr =>
        rw [judged] at refused
        cases refused
      | fault | stay | descend next => rfl
  · rw [if_neg walks]

theorem riscvMmuVirtTranslate_state (access : Access) :
    (riscvMmuVirtTranslate vm vaddr access).2 = (riscvMmuTranslate vm vaddr access.mask).2 := by
  unfold riscvMmuVirtTranslate riscvMmuOpPhys riscvMmuFault
  rw [if_neg nofun]
  generalize riscvMmuTranslate vm vaddr access.mask = result
  obtain ⟨_ | paddr, mid⟩ := result <;> rfl

theorem setAd_self_iff (host : HostMem) (slot : Addr) (access : Access) :
    setAd host slot access = host ↔ Marked host slot access := by
  rw [setAd, Function.update_eq_self_iff]
  exact Iff.rfl

theorem virtTranslate_keeps_iff (access : Access) :
    (riscvMmuVirtTranslate vm vaddr access).2 = vm ↔
      ∀ slot ∈ vm.granting vaddr access.mask, Marked vm.host slot access := by
  rw [riscvMmuVirtTranslate_state, riscvMmuTranslate_marks vm vaddr (effectiveAccess_write vm access)]
  cases vm.granting vaddr access.mask with
  | none => exact iff_of_true rfl nofun
  | some slot =>
    simp only [elim_some, mem_some_iff, forall_eq', ← setAd_self_iff]
    constructor
    · intro same
      exact congrArg Hart.host same
    · intro same
      rw [same]

end Translate

/-- Accessed and dirty bits have been set, in the first byte of entries among `slots` and in guest RAM alone. -/
def Ticked (mem : GuestRam) (slots : List Addr) (host host' : HostMem) : Prop :=
  ∀ q, ∃ bits : Byte, host' q = host q ||| (bits &&& 0xC0#8) ∧
    (bits ≠ 0 → q ∈ slots ∧ q - mem.data < mem.size)

/-- The entries that grant translations made one after the other. -/
def Hart.grantings (vm : Hart δ) : List (Addr × Access) → List Addr
  | [] => []
  | query :: queries => (vm.granting query.1 query.2.mask).toList ++
      (riscvMmuVirtTranslate vm query.1 query.2).2.grantings queries

theorem Ticked.trans {mem : GuestRam} {slots later : List Addr} {first second third : HostMem}
    (once : Ticked mem slots first second) (twice : Ticked mem later second third) :
    Ticked mem (slots ++ later) first third := by
  intro q
  obtain ⟨one, eq₁, in₁⟩ := once q
  obtain ⟨two, eq₂, in₂⟩ := twice q
  refine ⟨one ||| two, ?_, fun some => ?_⟩
  · rw [eq₂, eq₁]
    grind
  · by_cases none : one = 0
    · exact (in₂ fun zero => some (by rw [none, zero]; rfl)).imp_left (mem_append_right slots)
    · exact (in₁ none).imp_left (mem_append_left later)

theorem last_inRam {fmt : PteFormat} {mem : GuestRam} {vaddr : Addr} {levels : Nat} {pos : Walk} {host : HostMem}
    {last : Walk × Addr} (ends : fmt.last mem vaddr levels pos host = some last) :
    last.2 - mem.data < mem.size := by
  fun_induction fmt.last mem vaddr levels pos host with
  | case1 | case2 => cases ends
  | case3 _ _ _ _ _ _ ih => exact ih ends
  | case4 _ _ _ _ found =>
    cases ends
    unfold riscvPhysAccess at found
    split at found
    · cases found
      rw [BitVec.add_comm, BitVec.add_sub_cancel]
      exact And.right ‹_›
    · cases found

theorem virtTranslate_ticked (vm : Hart δ) (vaddr : Addr) (access : Access) :
    ∃ host, (riscvMmuVirtTranslate vm vaddr access).2 = { vm with host := host } ∧
      Ticked vm.mem (vm.granting vaddr access.mask).toList vm.host host := by
  refine ⟨_, (riscvMmuVirtTranslate_state ..).trans
    (riscvMmuTranslate_marks vm vaddr (effectiveAccess_write vm access)), fun q => ?_⟩
  cases granted : vm.granting vaddr access.mask with
  | none => exact ⟨0, by simp, by simp⟩
  | some slot =>
    by_cases here : q = slot
    · refine ⟨if access = .write then 0xC0 else 0x40, ?_, fun _ => ?_⟩
      · rw [here]
        cases access <;> exact Function.update_self ..
      · simp only [Hart.granting, Hart.lastEntry, ite_none_right_eq_some, bind_eq_some_iff] at granted
        obtain ⟨-, last, ⟨-, ends⟩, leaf⟩ := granted
        split at leaf <;> cases leaf
        exact ⟨here ▸ mem_singleton_self _, here ▸ last_inRam ends⟩
    · exact ⟨0, (Function.update_of_ne here ..).trans (by simp), by simp⟩

/-- Translations only set accessed and dirty bits, in guest RAM and in the entries that grant them. -/
theorem translations_ticked (vm : Hart δ) (queries : List (Addr × Access)) :
    ∃ host, Runs.final (fun vm query => (riscvMmuVirtTranslate vm query.1 query.2).2) vm queries =
      { vm with host := host } ∧ Ticked vm.mem (vm.grantings queries) vm.host host := by
  induction queries generalizing vm with
  | nil => exact ⟨vm.host, rfl, fun q => ⟨0, by simp, by simp⟩⟩
  | cons query queries ih =>
    obtain ⟨mid, step, once⟩ := virtTranslate_ticked vm query.1 query.2
    obtain ⟨host, run, twice⟩ := ih { vm with host := mid }
    refine ⟨host, (congrArg (Runs.final _ · queries) step).trans run, ?_⟩
    rw [Hart.grantings, step]
    exact once.trans twice

/-! Accesses of the debugger. -/

/-- The write callback hands back a buffer of the size it was given. -/
def MmioDev.KeepsSize (dev : MmioDev δ) : Prop :=
  ∀ devices data offset, (riscvMmioCall dev devices data offset data.length .write).1.length = data.length

namespace MmuPart
variable (part : MmuPart δ)

/-- The host memory behind the first byte, as the debugger sees it. -/
def pointer : Option Addr :=
  (part.vm.translated part.vaddr debugAccess).bind fun paddr =>
    match riscvPhysAccess part.vm.mem paddr with
    | some ptr => some ptr
    | none =>
      (part.vm.mmioDevs.find? fun dev => dev.contains paddr).bind fun dev =>
        dev.mapping.map (· + (paddr - dev.addr))

def asked (access : Access) : Set Addr :=
  {q | access = .write ∧ ∃ ptr ∈ part.pointer, q - ptr < BitVec.ofNat 64 part.data.length}

/-- The entry that grants the access has both bits, or is itself among the bytes to be written. -/
def Settled (asked : Set Addr) : Prop :=
  ∀ slot ∈ part.vm.granting part.vaddr debugAccess, slot ∈ asked ∨ Marked part.vm.host slot .write

def mark (q : Addr) : Byte := if part.vm.granting part.vaddr debugAccess = some q then 0xC0 else 0

end MmuPart

section Memory
variable {vm : Hart δ} {vaddr paddr q : Addr} {data : List Byte} {access : Access}

theorem riscvRamAccess_outside {ptr : Addr} (outside : access = .write → ¬ q - ptr < BitVec.ofNat 64 data.length) :
    (riscvRamAccess vm vaddr paddr ptr data access).2.host q = vm.host q := by
  unfold riscvRamAccess
  by_cases store : access = .write
  · rw [if_pos store]
    change vm.host.store ptr data q = _
    exact HostMem.write_outside _ _ (outside store)
  · rw [if_neg store]
    rfl

theorem riscvMmioScan_outside (sized : ∀ dev ∈ vm.mmioDevs, dev.KeepsSize)
    (outside : access = .write → ∀ dev, (vm.mmioDevs.find? fun dev => dev.contains paddr) = some dev →
      ∀ mapping ∈ dev.mapping, ¬ q - (mapping + (paddr - dev.addr)) < BitVec.ofNat 64 data.length) :
    (riscvMmioScan vm vaddr paddr data access).2.host q = vm.host q := by
  unfold riscvMmioScan
  cases found : vm.mmioDevs.find? fun dev => dev.contains paddr with
  | none => rfl
  | some dev =>
    dsimp only
    cases mapped : dev.mapping with
    | none => rfl
    | some mapping =>
      dsimp only
      by_cases store : access = .write
      · have size := sized dev (mem_of_find?_eq_some found) vm.devices data (paddr - dev.addr)
        have past := outside store dev found mapping mapped
        subst store
        rw [if_pos rfl]
        dsimp only
        rw [HostMem.store, size, HostMem.write_outside _ _ past]
        split <;> rfl
      · rw [if_neg store]
        split <;> rfl

end Memory

namespace MmuPart
variable (part : MmuPart δ) {access : Access} {noTrap : Bool} {asked : Set Addr}

section
variable (sized : ∀ dev ∈ part.vm.mmioDevs, dev.KeepsSize) {q : Addr} (outside : q ∉ part.asked access)
include sized outside

theorem after_outside :
    (part.after ⟨noTrap, true⟩ access).host q = (riscvMmuTranslate part.vm part.vaddr debugAccess).2.host q := by
  have kept := riscvMmuTranslate_host part.vm part.vaddr debugAccess
  have past (store : access = .write) (ptr : Addr) (pointed : part.pointer = some ptr) :
      ¬ q - ptr < BitVec.ofNat 64 part.data.length := fun inside => outside ⟨store, ptr, pointed, inside⟩
  unfold pointer Hart.translated at past
  rw [(part.after_data ⟨noTrap, true⟩ access).host]
  unfold reached
  rw [if_pos rfl]
  generalize riscvMmuTranslate part.vm part.vaddr debugAccess = result at kept past ⊢
  obtain ⟨_ | paddr, mid⟩ := result
  · rfl
  · dsimp only at kept past ⊢
    rw [bind_some] at past
    rw [show mid.mem = part.vm.mem by rw [kept]]
    cases inRam : riscvPhysAccess part.vm.mem paddr with
    | some ptr =>
      rw [inRam] at past
      exact riscvRamAccess_outside fun store => past store ptr rfl
    | none =>
      rw [inRam] at past
      have devs : mid.mmioDevs = part.vm.mmioDevs := by rw [kept]
      refine riscvMmioScan_outside (devs ▸ sized) fun store dev found mapping mapped => ?_
      rw [devs] at found
      refine past store _ ?_
      rw [found, bind_some, mapped, map_some]

theorem after_marks :
    (part.after ⟨noTrap, true⟩ access).host q = part.vm.host q ||| part.mark q := by
  have dirty : part.vm.effectiveAccess debugAccess &&& 0x4#64 =
      if Access.write = .write then 0x4#64 else 0#64 := by
    unfold Hart.effectiveAccess
    cases part.vm.csr.mxr <;> decide
  rw [after_outside part sized outside, riscvMmuTranslate_marks _ _ dirty, mark]
  cases part.vm.granting part.vaddr debugAccess with
  | none => exact (or_zero).symm
  | some slot =>
    by_cases here : q = slot
    · subst here
      rw [if_pos rfl]
      exact Function.update_self ..
    · rw [if_neg fun same => here (some.inj same).symm]
      exact (Function.update_of_ne here ..).trans or_zero.symm
end

theorem settled_iff : part.Settled asked ↔ ∀ q ∉ asked, part.vm.host q ||| part.mark q = part.vm.host q := by
  unfold Settled mark
  cases part.vm.granting part.vaddr debugAccess with
  | none => exact iff_of_true (nofun) fun q _ => or_zero
  | some slot =>
    constructor
    · intro settled q outside
      by_cases here : slot = q
      · subst here
        rw [if_pos rfl]
        exact (settled slot rfl).resolve_left outside
      · rw [if_neg fun same => here (some.inj same)]
        exact or_zero
    · rintro kept q ⟨⟩
      by_cases inside : slot ∈ asked
      · exact .inl inside
      · have same := kept slot inside
        rw [if_pos rfl] at same
        exact .inr same

theorem after_keeps_iff (sized : ∀ dev ∈ part.vm.mmioDevs, dev.KeepsSize) (within : part.asked access ⊆ asked) :
    (∀ q ∉ asked, (part.after ⟨noTrap, true⟩ access).host q = part.vm.host q) ↔ part.Settled asked := by
  rw [settled_iff]
  refine forall₂_congr fun q outside => ?_
  rw [after_marks part sized fun inside => outside (within inside)]

end MmuPart

/-- Bits that are only set cannot be taken back by the next part. -/
theorem marked_twice {first second third mark next : Byte} (once : second = first ||| mark)
    (twice : third = second ||| next) : third = first ↔ second = first ∧ third = second := by
  constructor
  · intro same
    have absorbed : third ||| mark = third := by
      rw [twice, once, BitVec.or_assoc, or_comm next, ← BitVec.or_assoc, or_assoc first,
        BitVec.or_self]
    have between : second = first := by
      rw [once, ← same, absorbed]
    exact ⟨between, same.trans between.symm⟩
  · rintro ⟨rfl, rfl⟩
    rfl

section Debugger
variable (vm : Hart δ) (vaddr : Addr) (data : List Byte) (noTrap : Bool) (access : Access)

def askedBytes : Set Addr :=
  {q | ∃ part ∈ riscvMmuParts vm vaddr data ⟨noTrap, true⟩ access, q ∈ part.asked access}

/-- An access of the debugger leaves the bytes it is not asked to write exactly when the entries
of its parts are settled. -/
theorem debugger_keeps_iff (sized : ∀ dev ∈ vm.mmioDevs, dev.KeepsSize) :
    (∀ q ∉ askedBytes vm vaddr data noTrap access,
        (riscvMmuOp vm vaddr data ⟨noTrap, true⟩ access).2.host q = vm.host q) ↔
      ∀ part ∈ riscvMmuParts vm vaddr data ⟨noTrap, true⟩ access,
        part.Settled (askedBytes vm vaddr data noTrap access) := by
  have within {part : MmuPart δ} (mine : part ∈ riscvMmuParts vm vaddr data ⟨noTrap, true⟩ access) :
      part.asked access ⊆ askedBytes vm vaddr data noTrap access := fun q inside => ⟨part, mine, inside⟩
  rcases riscvMmuOp_parts vm vaddr data ⟨noTrap, true⟩ access with
    ⟨part, parts, rfl, ends⟩ | ⟨one, two, parts, rfl, between, ends⟩
  · rw [parts] at within ⊢
    rw [forall_mem_singleton, ends]
    exact part.after_keeps_iff sized (within (mem_singleton_self _))
  · rw [parts] at within ⊢
    have firstWithin := within (mem_cons_self ..)
    have secondWithin := within (mem_cons_of_mem _ (mem_singleton_self _))
    have devs := riscvMmuOpPage_mmioDevs one.vm one.vaddr one.data ⟨noTrap, true⟩ access
    have sizedNext : ∀ dev ∈ two.vm.mmioDevs, dev.KeepsSize := by
      rw [between, MmuPart.after, devs]
      exact sized
    rw [forall_mem_cons, forall_mem_singleton, ends, ← one.after_keeps_iff sized firstWithin,
      ← two.after_keeps_iff sizedNext secondWithin, ← forall₂_and]
    refine forall₂_congr fun q outside => ?_
    have twice : (two.after ⟨noTrap, true⟩ access).host q = two.vm.host q ||| two.mark q :=
      two.after_marks sizedNext fun inside => outside (secondWithin inside)
    rw [between] at twice ⊢
    exact marked_twice (one.after_marks sized fun inside => outside (firstWithin inside)) twice

/-- No query is noticed: not a translation, not a fault, and not an access of the debugger, outside the
bytes it is asked to write. -/
structure QueriesKeep : Prop where
  translated : (riscvMmuVirtTranslate vm vaddr access).2 = vm
  faulted : ∀ mask, (riscvMmuTranslate vm vaddr mask).1 = none → (riscvMmuTranslate vm vaddr mask).2 = vm
  debugged : ∀ q ∉ askedBytes vm vaddr data noTrap access,
    (riscvMmuOp vm vaddr data ⟨noTrap, true⟩ access).2.host q = vm.host q

/-- The entries that queries go through already have their accessed and dirty bits. -/
structure QueriesSettled : Prop where
  translated : ∀ slot ∈ vm.granting vaddr access.mask, Marked vm.host slot access
  debugged : ∀ part ∈ riscvMmuParts vm vaddr data ⟨noTrap, true⟩ access,
    part.Settled (askedBytes vm vaddr data noTrap access)

/-- Queries leave memory and the hart as they are exactly when their entries are settled. -/
theorem queries_keep_iff (sized : ∀ dev ∈ vm.mmioDevs, dev.KeepsSize) :
    QueriesKeep vm vaddr data noTrap access ↔ QueriesSettled vm vaddr data noTrap access := by
  have debugged := debugger_keeps_iff vm vaddr data noTrap access sized
  have translated := virtTranslate_keeps_iff vm vaddr access
  constructor
  · intro keep
    exact ⟨translated.mp keep.translated, debugged.mp keep.debugged⟩
  · intro settled
    exact ⟨translated.mpr settled.translated, fun _ => riscvMmuTranslate_refused vm vaddr,
      debugged.mpr settled.debugged⟩

end Debugger

theorem queries_keep_iff_tableHart :
    (∀ dev ∈ (tableHart .sv39 0xCF).mmioDevs, dev.KeepsSize) ∧
      (QueriesKeep (tableHart .sv39 0xCF) 0x1234 [0, 0] true .read ↔
        QueriesSettled (tableHart .sv39 0xCF) 0x1234 [0, 0] true .read) :=
  ⟨nofun, queries_keep_iff (tableHart .sv39 0xCF) 0x1234 [0, 0] true .read nofun⟩

/-- A query for a read sets the accessed bit of the leaf, and a read of the debugger both bits. -/
theorem queries_mark_leaf :
    (tableHart .sv39 0xF).host 0x10000 = 0xF ∧
      (riscvMmuVirtTranslate (tableHart .sv39 0xF) 0x1234 .read).2.host 0x10000 = 0x4F ∧
      (riscvMmuOp (tableHart .sv39 0xF) 0x1234 [0, 0] ⟨true, true⟩ .read).2.host 0x10000 = 0xCF := by
  decide +kernel

end Rvvm
