import Rvvm.Cpu.Atomics
import Rvvm.Cpu.Csr
import Rvvm.Library.Runs

/-! Load-reserved and store-conditional over all interleavings of harts that share RAM: what a
successful store-conditional says about the load-reserved before it. -/
namespace Rvvm
open Function List

variable {ι δ : Type}

structure SharedRam (ι δ : Type) where
  harts : ι → Hart δ
  host : HostMem

/-- An instruction that touches RAM, after its operand has been translated to a host pointer. -/
inductive RamOp
  | amo (xl : Xlen) (insn : BitVec 32) (size : Nat) (op : AmoOp) (vaddr p : Addr)
  | dwcas (xl : Xlen) (insn : BitVec 32) (vaddr p : Addr)
  | store (p : Addr) (data : List Byte)

namespace RamOp

def run (vm : Hart δ) : RamOp → Hart δ
  | amo xl insn size op vaddr p => amoExecute xl vm insn size op vaddr (.host p)
  | dwcas xl insn vaddr p => dwcasExecute xl vm insn vaddr (.host p)
  | store p data => { vm with host := vm.host.store p data }

def reserves : RamOp → Bool
  | amo _ _ _ .lr _ _ | amo _ _ _ .sc _ _ => true
  | _ => false

end RamOp

theorem riscvEmulateAtomic_run (xl : Xlen) (vm vm' : Hart δ) (insn : BitVec 32) (size : Nat) {op : AmoOp}
    {p : Addr} (decoded : amoOp (insn >>> 27).toNat = some op)
    (aligned : vaddrAligned (toAddr (riscvReadReg xl vm (regField insn 15))) size = true)
    (translated : riscvPtrTranslate vm (toAddr (riscvReadReg xl vm (regField insn 15))) size true
      (if op = .lr then .read else .write) = (some (.host p), vm')) :
    riscvEmulateAtomic xl vm insn size false =
      (RamOp.amo xl insn size op (toAddr (riscvReadReg xl vm (regField insn 15))) p).run vm' := by
  unfold riscvEmulateAtomic
  rw [decoded]
  dsimp only
  rw [if_pos aligned, translated]
  rfl

section Steps
variable [DecidableEq ι]

/-- One hart executes one operation on the shared memory. -/
def ramStep (s : SharedRam ι δ) (event : ι × RamOp) : SharedRam ι δ :=
  let vm := event.2.run { s.harts event.1 with host := s.host }
  ⟨update s.harts event.1 vm, vm.host⟩

/-- The state before an event, given all events. -/
abbrev ramRun (s : SharedRam ι δ) (events : List (ι × RamOp)) : SharedRam ι δ := Runs.final ramStep s events

end Steps

/-- What a load-reserved keeps of the bytes it loads. -/
def reservedValue (host : HostMem) (p : Addr) (size : Nat) : BitVec 64 :=
  ((leWord (host.load p size)).setWidth (8 * size)).setWidth 64

/-! Reservations. -/

theorem RamOp.run_reservation {op : RamOp} (other : op.reserves = false) (vm : Hart δ) :
    (op.run vm).lrsc = vm.lrsc ∧ (op.run vm).lrscAddr = vm.lrscAddr ∧ (op.run vm).lrscCas = vm.lrscCas := by
  cases op with
  | amo xl insn size op vaddr p =>
    cases op with
    | lr => cases other
    | sc => cases other
    | _ => exact ⟨rfl, rfl, rfl⟩
  | dwcas xl insn vaddr p =>
    unfold RamOp.run dwcasExecute
    dsimp only
    split <;> exact ⟨rfl, rfl, rfl⟩
  | store p data => exact ⟨rfl, rfl, rfl⟩

section
variable (xl : Xlen) (vm : Hart δ) (insn : BitVec 32) (size : Nat) (vaddr p : Addr)

theorem lr_reservation :
    ((RamOp.amo xl insn size .lr vaddr p).run vm).lrscAddr = vaddr ∧
      ((RamOp.amo xl insn size .lr vaddr p).run vm).lrscCas = reservedValue vm.host p size := ⟨rfl, rfl⟩

theorem sc_outcome :
    let after := (RamOp.amo xl insn size .sc vaddr p).run vm
    after.lrsc = false ∧
      ((vm.lrsc = true ∧ vm.lrscAddr = vaddr ∧
          (leWord (vm.host.load p size)).setWidth (8 * size) = vm.lrscCas.setWidth (8 * size) ∧
            after.registers (regField insn 7) = 0 ∧
              after.host = vm.host.store p (wordBytes
                (((riscvReadReg xl vm (regField insn 20)).setWidth (8 * size)).setWidth 64) size)) ∨
        (after.registers (regField insn 7) = 1 ∧ after.host = vm.host)) := by
  unfold RamOp.run amoExecute
  dsimp only
  split
  next valid =>
    refine ⟨rfl, .inl ⟨valid.1, valid.2.1, valid.2.2, ?_, rfl⟩⟩
    exact update_self _ _ _
  next =>
    refine ⟨rfl, .inr ⟨?_, rfl⟩⟩
    exact update_self _ _ _

end

/-- The events end in a load-reserved of the hart at an address, and operations after it of which
none of that hart is a load-reserved or store-conditional. -/
structure LastReserved (events : List (ι × RamOp)) (h : ι) (vaddr : Addr) (before : List (ι × RamOp))
    (p : Addr) (size : Nat) : Prop where
  split : ∃ xl insn since, events = before ++ (h, .amo xl insn size .lr vaddr p) :: since ∧
    ∀ event ∈ since, event.1 = h → event.2.reserves = false

theorem LastReserved.concat {events before : List (ι × RamOp)} {h : ι} {vaddr p : Addr} {size : Nat}
    (last : LastReserved events h vaddr before p size) {event : ι × RamOp}
    (other : event.1 = h → event.2.reserves = false) :
    LastReserved (events ++ [event]) h vaddr before p size := by
  obtain ⟨xl, insn, since, rfl, quiet⟩ := last.split
  refine ⟨xl, insn, since ++ [event], ?_, ?_⟩
  · rw [append_assoc, cons_append]
  · intro e member
    rcases mem_append.mp member with earlier | here
    · exact quiet e earlier
    · rw [mem_singleton.mp here]
      exact other

section Interleavings
variable [DecidableEq ι]

theorem reservation_last (start : SharedRam ι δ) (fresh : ∀ h, (start.harts h).lrsc = false)
    (events : List (ι × RamOp)) (h : ι) (held : ((ramRun start events).harts h).lrsc = true) :
    ∃ before p size, LastReserved events h ((ramRun start events).harts h).lrscAddr before p size ∧
      ((ramRun start events).harts h).lrscCas = reservedValue (ramRun start before).host p size := by
  induction events using reverseRecOn with
  | nil =>
    rw [show ramRun start [] = start from rfl, fresh h] at held
    cases held
  | append_singleton events event ih =>
    obtain ⟨actor, op⟩ := event
    rw [ramRun, Runs.final_concat] at held ⊢
    by_cases own : actor = h
    · subst own
      let vm : Hart δ := { (ramRun start events).harts actor with host := (ramRun start events).host }
      have after : (ramStep (ramRun start events) (actor, op)).harts actor = op.run vm :=
        update_self _ _ _
      rw [after] at held ⊢
      cases kind : op.reserves with
      | false =>
        obtain ⟨lrsc, addr, cas⟩ := RamOp.run_reservation kind vm
        rw [lrsc] at held
        obtain ⟨before, p, size, last, value⟩ := ih held
        refine ⟨before, p, size, ?_, cas.trans value⟩
        rw [addr]
        exact last.concat fun _ => kind
      | true =>
        match op, kind with
        | .amo xl insn size .lr vaddr p, _ =>
          obtain ⟨addr, cas⟩ := lr_reservation xl vm insn size vaddr p
          refine ⟨events, p, size, ⟨xl, insn, [], ?_, nofun⟩, cas⟩
          rw [addr]
        | .amo xl insn size .sc vaddr p, _ =>
          rw [(sc_outcome xl vm insn size vaddr p).1] at held
          cases held
    · have after : (ramStep (ramRun start events) (actor, op)).harts h = (ramRun start events).harts h :=
        update_of_ne (Ne.symm own) _ _
      rw [after] at held ⊢
      obtain ⟨before, p, size, last, value⟩ := ih held
      exact ⟨before, p, size, last.concat fun same => absurd same own, value⟩

end Interleavings

/-! Equal words of equal width are equal bytes. -/

theorem leNat_lt (bytes : List Byte) : leNat bytes < 256 ^ bytes.length := by
  induction bytes with
  | nil => exact Nat.one_pos
  | cons b bs ih =>
    rw [leNat, length_cons]
    omega

theorem leNat_injective {a b : List Byte} (length : a.length = b.length) (same : leNat a = leNat b) : a = b := by
  induction a generalizing b with
  | nil => exact (length_eq_zero_iff.mp length.symm).symm
  | cons x xs ih =>
    match b with
    | [] => cases length
    | y :: ys =>
      rw [leNat, leNat] at same
      have head : x = y := BitVec.eq_of_toNat_eq (by omega)
      have tail : xs = ys := ih (Nat.succ.inj length) (by omega)
      rw [head, tail]

theorem leWord_injective {a b : List Byte} {size : Nat} (first : a.length = size) (second : b.length = size)
    (small : size ≤ 8)
    (same : (leWord a).setWidth (8 * size) = (leWord b).setWidth (8 * size)) : a = b := by
  have exactly (bytes : List Byte) (length : bytes.length = size) :
      ((leWord bytes).setWidth (8 * size)).toNat = leNat bytes := by
    have bound : leNat bytes < 2 ^ (8 * size) := by
      rw [pow_mul, ← length]
      exact leNat_lt bytes
    have wide : 2 ^ (8 * size) ≤ 2 ^ 64 := Nat.pow_le_pow_right (by decide) (by omega)
    unfold leWord
    rw [BitVec.toNat_setWidth, BitVec.toNat_ofNat, Nat.mod_eq_of_lt (lt_of_lt_of_le bound wide),
      Nat.mod_eq_of_lt bound]
  refine leNat_injective (first.trans second.symm) ?_
  rw [← exactly a first, same, exactly b second]

/-- In every interleaving, a store-conditional either fails, which leaves memory alone and stores 1
in its destination, or pairs with the last load-reserved of its hart: that one named the same
address, no store-conditional of the hart came between, and the bytes hold the value it loaded. -/
theorem sc_pairs_with_lr {ι δ : Type} [DecidableEq ι] (start : SharedRam ι δ)
    (fresh : ∀ h, (start.harts h).lrsc = false) (events : List (ι × RamOp)) (h : ι) (xl : Xlen)
    (insn : BitVec 32) (size : Nat) (vaddr p : Addr) :
    let now := ramRun start events
    let after := ramStep now (h, .amo xl insn size .sc vaddr p)
    ((after.harts h).registers (regField insn 7) = 0 ∧
        after.host = now.host.store p (wordBytes
          (((riscvReadReg xl (now.harts h) (regField insn 20)).setWidth (8 * size)).setWidth 64) size) ∧
          ∃ before q width, LastReserved events h vaddr before q width ∧
            (leWord (now.host.load p size)).setWidth (8 * size) =
              (reservedValue (ramRun start before).host q width).setWidth (8 * size) ∧
              (width = size → size ≤ 8 → now.host.load p size = (ramRun start before).host.load q size)) ∨
      ((after.harts h).registers (regField insn 7) = 1 ∧ after.host = now.host) := by
  intro now after
  have own : after.harts h = (RamOp.amo xl insn size .sc vaddr p).run { now.harts h with host := now.host } :=
    update_self _ _ _
  obtain ⟨-, outcome⟩ := sc_outcome xl { now.harts h with host := now.host } insn size vaddr p
  rw [← own] at outcome
  have memory : after.host = (after.harts h).host := by
    rw [own]
    rfl
  rw [memory]
  rcases outcome with ⟨held, addr, value, zero, stored⟩ | ⟨one, kept⟩
  · refine .inl ⟨zero, stored, ?_⟩
    obtain ⟨before, q, width, last, cas⟩ := reservation_last start fresh events h held
    have named : (now.harts h).lrscAddr = vaddr := addr
    have expected : (leWord (now.host.load p size)).setWidth (8 * size) =
        (reservedValue (ramRun start before).host q width).setWidth (8 * size) := by
      rw [← cas]
      exact value
    refine ⟨before, q, width, named ▸ last, expected, ?_⟩
    rintro rfl small
    refine leWord_injective (by simp [HostMem.load]) (by simp [HostMem.load]) small ?_
    rw [expected, reservedValue, BitVec.setWidth_setWidth_of_le _ (by omega), BitVec.setWidth_eq]
  · exact .inr ⟨one, kept⟩

/-- Two harts without reservations, with 9 in every register, and empty memory. -/
def twoHarts : SharedRam (Fin 2) Unit :=
  ⟨fun _ => { riscvHartInit .empty (fun _ => 0) [] () true false with registers := fun _ => 9 }, fun _ => 0⟩

/-- `lr.w x5, (x1)` or `lr.d`, and two stores of the other hart, the second of which restores the
word. -/
def restoredWord (size : Nat) : List (Fin 2 × RamOp) :=
  [(0, .amo .rv64 0x1000A2AF size .lr 0x100 0x100), (1, .store 0x100 [7, 0, 0, 0]),
    (1, .store 0x100 [0, 0, 0, 0])]

theorem sc_pairs_with_lr_restoredWord :
    (∀ h, (twoHarts.harts h).lrsc = false) ∧
      let now := ramRun twoHarts (restoredWord 4)
      let after := ramStep now (0, .amo .rv64 0x1870A32F 4 .sc 0x100 0x100)
      ((after.harts 0).registers (regField 0x1870A32F 7) = 0 ∧
          after.host = now.host.store 0x100 (wordBytes
            (((riscvReadReg .rv64 (now.harts 0) (regField 0x1870A32F 20)).setWidth (8 * 4)).setWidth 64) 4) ∧
            ∃ before q width, LastReserved (restoredWord 4) 0 0x100 before q width ∧
              (leWord (now.host.load 0x100 4)).setWidth (8 * 4) =
                (reservedValue (ramRun twoHarts before).host q width).setWidth (8 * 4) ∧
                (width = 4 → 4 ≤ 8 → now.host.load 0x100 4 = (ramRun twoHarts before).host.load q 4)) ∨
        ((after.harts 0).registers (regField 0x1870A32F 7) = 1 ∧ after.host = now.host) :=
  ⟨fun _ => rfl, sc_pairs_with_lr twoHarts (fun _ => rfl) (restoredWord 4) 0 .rv64 0x1870A32F 4 0x100 0x100⟩

/-- `sc.w x6, x7, (x1)` succeeds although the other hart wrote the word since the load-reserved, and
also although that one was an `lr.d`. -/
theorem sc_succeeds_after_write :
    let afterLrW := ramStep (ramRun twoHarts (restoredWord 4)) (0, .amo .rv64 0x1870A32F 4 .sc 0x100 0x100)
    let afterLrD := ramStep (ramRun twoHarts (restoredWord 8)) (0, .amo .rv64 0x1870A32F 4 .sc 0x100 0x100)
    (ramRun twoHarts ((restoredWord 4).take 2)).host 0x100 = 7 ∧
      ((afterLrW.harts 0).registers 6 = 0 ∧ afterLrW.host 0x100 = 9) ∧
        (afterLrD.harts 0).registers 6 = 0 ∧ afterLrD.host 0x100 = 9 := by
  refine ⟨?_, ⟨?_, ?_⟩, ?_, ?_⟩
  all_goals decide +kernel

end Rvvm
