import Rvvm.Library.Runs

/-! Transfer rings of the xHCI controller: how a transfer descriptor is collected from guest memory,
what is then asked of the USB device and with which buffer, and what is posted to the guest. What the
device answers is given from outside. -/
namespace Rvvm.XhciRing
open List
open Option hiding guard

abbrev Addr := BitVec 64

structure Trb where
  ptr : Addr
  sts : BitVec 32
  ctr : BitVec 32
  deriving DecidableEq

namespace Trb
variable (t : Trb)

def cycle : Bool := t.ctr.getLsbD 0

def toggles : Bool := t.ctr.getLsbD 1

def chained : Bool := t.ctr.getLsbD 4

def ioc : Bool := t.ctr.getLsbD 5

def type : Nat := ((t.ctr >>> 10) &&& 0x3F).toNat

def len : Nat := (t.sts &&& 0x1FFFF).toNat

def interrupter : Nat := ((t.sts >>> 22) &&& 0x3FF).toNat

end Trb

def typeSetup : Nat := 2

def typeData : Nat := 3

def typeStatus : Nat := 4

def typeLink : Nat := 6

def typeEventData : Nat := 7

/-- Guest memory as `pci_get_dma_ptr` gives access to it. The harts and the devices write to it during a
doorbell, so `trbAt` is what is found at an address when the TRB there is read. -/
structure Guest where
  trbAt : Addr → Option Trb
  reach : Addr → Nat → Bool

/-- The dequeue pointer of an endpoint and its cycle state. -/
structure Cursor where
  deq : Addr
  dcs : Bool
  deriving DecidableEq

structure Td where
  trbs : List (Addr × Trb)
  next : Cursor

/-- The arrays of `xhci_td_t` hold 32 TRBs; further ones are not kept. -/
def keep (trbs : List (Addr × Trb)) (e : Addr × Trb) : List (Addr × Trb) :=
  if trbs.length < 32 then trbs ++ [e] else trbs

def collectLoop (g : Guest) : Nat → Cursor → List (Addr × Trb) → Option Td
  | 0, _, _ => none
  | guard + 1, cur, trbs =>
    match g.trbAt cur.deq with
    | none => none
    | some trb =>
      if trb.cycle ≠ cur.dcs then none
      else if trb.type = typeLink then
        collectLoop g guard ⟨trb.ptr &&& ~~~ 0x3F, if trb.toggles then !cur.dcs else cur.dcs⟩ trbs
      else if !trb.chained then some ⟨keep trbs (cur.deq, trb), ⟨cur.deq + 16, cur.dcs⟩⟩
      else collectLoop g guard ⟨cur.deq + 16, cur.dcs⟩ (keep trbs (cur.deq, trb))

def xhciCollectTd (g : Guest) (cur : Cursor) : Option Td := collectLoop g 64 cur []

inductive Buf
  | null
  | dma (ptr : Addr) (size : Nat)
  | scratch
  deriving DecidableEq

/-- What is asked of the device: a control transfer has the eight bytes of its request. -/
structure Call where
  setup : Option (BitVec 64)
  buf : Buf
  len : Nat
  deriving DecidableEq

/-- A transfer event: the TRB it points at, the bytes left over and the completion code. -/
structure Posted where
  target : Addr
  residue : Nat
  code : Nat
  interrupter : Nat
  deriving DecidableEq

def compSuccess : Nat := 1

def compStall : Nat := 6

def compShortPkt : Nat := 13

structure Pending where
  trbPtr : Addr
  interrupter : Nat
  length : Nat
  deriving DecidableEq

structure Outcome where
  calls : List Call
  posted : List Posted
  pending : Option Pending
  deriving DecidableEq

def rvvmUsbXferAsync : Int := -1

def transferEvent (target : Addr) (transferred requested interrupter : Nat) : Posted :=
  { target := target
    residue := (requested - transferred) % 2 ^ 24
    code := if transferred < requested then compShortPkt else compSuccess
    interrupter := interrupter }

def xhciTrbBuf (g : Guest) (ptr : Addr) (len : Nat) : Buf :=
  if len = 0 then .null else if g.reach ptr len then .dma ptr len else .null

/-- The variables of `xhci_run_control_td`. -/
structure Stages where
  setup : Option (BitVec 64)
  status : Addr
  interrupter : Nat
  dataLen : Nat
  dataBuf : Buf

def Stages.scan (g : Guest) (s : Stages) (entry : Addr × Trb) : Stages :=
  let (addr, trb) := entry
  if trb.type = typeSetup then { s with setup := some trb.ptr }
  else if trb.type = typeData then
    { s with
      dataLen := trb.len
      dataBuf := if xhciTrbBuf g trb.ptr trb.len = .null then s.dataBuf else xhciTrbBuf g trb.ptr trb.len }
  else if trb.type = typeStatus then
    { s with status := addr, interrupter := if trb.ioc then trb.interrupter else s.interrupter }
  else s

def stages (g : Guest) (td : Td) : Stages := td.trbs.foldl (Stages.scan g) ⟨none, 0, 0, 0, .null⟩

def Td.first (td : Td) : Addr := (td.trbs.head?.map Prod.fst).getD 0

def Td.last (td : Td) : Addr := (td.trbs.getLast?.map Prod.fst).getD 0

/-- The call of `rvvm_usb_dev_control`: data that was not reached goes to a buffer on the stack. -/
def Stages.call (s : Stages) (setup : BitVec 64) : Call :=
  if s.dataLen ≠ 0 ∧ s.dataBuf = .null then ⟨some setup, .scratch, min s.dataLen 4096⟩
  else ⟨some setup, s.dataBuf, s.dataLen⟩

def xhciRunControlTd (g : Guest) (ret : Int) (td : Td) : Outcome :=
  let s := stages g td
  match s.setup with
  | none => ⟨[], [transferEvent td.first 0 0 0], none⟩
  | some setup =>
    let call := s.call setup
    let target := if s.status ≠ 0 then s.status else td.last
    if ret = rvvmUsbXferAsync then ⟨[call], [], some ⟨target, s.interrupter, call.len⟩⟩
    else
      let code := if ret < 0 then compStall else compSuccess
      ⟨[call], [⟨target, (call.len - ret.toNat) % 2 ^ 24, code, s.interrupter⟩], none⟩

/-- The variables of `xhci_run_normal_td`. -/
structure Tally where
  total : Nat
  done : Nat
  interrupter : Nat
  ioc : Addr

/-- The loop of `xhci_run_normal_td`, from its `i`th round on. -/
def normalLoop (g : Guest) (rets : Nat → Int) (last : Addr) : Nat → Tally → List (Addr × Trb) → Outcome
  | _, t, [] => ⟨[], [transferEvent (if t.ioc ≠ 0 then t.ioc else last) t.done t.total t.interrupter], none⟩
  | i, t, (addr, trb) :: rest =>
    let interrupter := if trb.ioc then trb.interrupter else t.interrupter
    if trb.type = typeEventData then
      normalLoop g rets last (i + 1) { t with ioc := trb.ptr, interrupter := interrupter } rest
    else
      let total := t.total + trb.len
      let call : Call := ⟨none, xhciTrbBuf g trb.ptr trb.len, trb.len⟩
      if rets i = rvvmUsbXferAsync then ⟨[call], [], some ⟨last, t.interrupter, total + trb.len⟩⟩
      else if rets i < 0 then ⟨[call], [⟨addr, 0, compStall, t.interrupter⟩], none⟩
      else
        let after := normalLoop g rets last (i + 1)
          ⟨total, (t.done + (rets i).toNat) % 2 ^ 32, interrupter, t.ioc⟩ rest
        { after with calls := call :: after.calls }

def xhciRunNormalTd (g : Guest) (rets : Nat → Int) (td : Td) : Outcome :=
  normalLoop g rets td.last 0 ⟨0, 0, 0, 0⟩ td.trbs

/-- The default control endpoint has index 1. -/
def xhciRunTd (g : Guest) (dci : Nat) (rets : Nat → Int) (td : Td) : Outcome :=
  if dci = 1 then xhciRunControlTd g (rets 0) td else xhciRunNormalTd g rets td

/-- A number of rounds of `xhci_run_transfer_ring`: whether it has returned, and what was run. -/
structure Walk where
  returned : Bool
  cursor : Cursor
  ran : List (Td × Outcome)

def ringLoop (g : Guest) (dci : Nat) (rets : Nat → Nat → Int) : Nat → Nat → Cursor → Walk
  | 0, _, cur => ⟨false, cur, []⟩
  | rounds + 1, k, cur =>
    match xhciCollectTd g cur with
    | none => ⟨true, cur, []⟩
    | some td =>
      let out := xhciRunTd g dci (rets k) td
      if out.pending.isSome then ⟨true, td.next, [(td, out)]⟩
      else
        let walk := ringLoop g dci rets rounds (k + 1) td.next
        { walk with ran := (td, out) :: walk.ran }

def Walk.calls (walk : Walk) : List Call := walk.ran.flatMap fun run => run.2.calls

def Walk.posted (walk : Walk) : List Posted := walk.ran.flatMap fun run => run.2.posted

def xhciMaxSlots : Nat := 32

structure Endpoint where
  enabled : Bool
  pending : Option Pending
  cursor : Cursor

/-- A device slot; `dev` says whether it has a device. -/
structure Slot where
  inUse : Bool
  dev : Bool
  eps : Nat → Endpoint

/-- What is checked before `xhci->lock` is taken. -/
def addressed (slotId dci : Nat) : Bool :=
  decide (slotId ≠ 0) && decide (slotId ≤ xhciMaxSlots) && decide (dci ≠ 0) && decide (dci < 32)

/-- What is checked before a ring is walked. -/
def served (slots : Nat → Slot) (slotId dci : Nat) : Bool :=
  addressed slotId dci
    && (slots slotId).inUse && ((slots slotId).eps dci).enabled && (slots slotId).dev
    && ((slots slotId).eps dci).pending.isNone

/-- The checks that fail inside `scoped_spin_lock` return from there, and a `return` does not unlock. -/
def keepsLock (slots : Nat → Slot) (slotId dci : Nat) : Bool :=
  addressed slotId dci &&
    (!(slots slotId).inUse || !((slots slotId).eps dci).enabled ||
      ((slots slotId).dev && ((slots slotId).eps dci).pending.isSome))

def xhciRunTransferRing (g : Guest) (slots : Nat → Slot) (rets : Nat → Nat → Int) (rounds slotId dci : Nat) :
    Walk :=
  if served slots slotId dci then ringLoop g dci rets rounds 0 ((slots slotId).eps dci).cursor
  else ⟨true, ((slots slotId).eps dci).cursor, []⟩

def doorbellDci (val : BitVec 32) : Nat := (val &&& 0xFF).toNat

def xhciDoorbellWrite (g : Guest) (slots : Nat → Slot) (rets : Nat → Nat → Int) (rounds id : Nat)
    (val : BitVec 32) :
    Walk :=
  xhciRunTransferRing g slots rets rounds id (doorbellDci val)

def nthTd (g : Guest) : Nat → Cursor → Option Td
  | 0, cur => xhciCollectTd g cur
  | n + 1, cur => (xhciCollectTd g cur).bind fun td => nthTd g n td.next

/-! What the loop does at a TRB. -/

def Guest.owned (g : Guest) (cur : Cursor) : Option Trb := (g.trbAt cur.deq).filter fun trb => trb.cycle == cur.dcs

def Cursor.advance (cur : Cursor) : Cursor := ⟨cur.deq + 16, cur.dcs⟩

section Collect
variable {g : Guest} {cur : Cursor} {trb : Trb} (guard : Nat) (trbs : List (Addr × Trb))

theorem owned_eq_some (here : g.owned cur = some trb) : g.trbAt cur.deq = some trb ∧ ¬ trb.cycle ≠ cur.dcs := by
  obtain ⟨found, own⟩ := filter_eq_some_iff.mp here
  exact ⟨found, not_not.mpr (beq_iff_eq.mp own)⟩

theorem collectLoop_foreign (foreign : g.owned cur = none) : collectLoop g guard cur trbs = none := by
  cases guard with
  | zero => rfl
  | succ guard =>
    unfold collectLoop
    cases found : g.trbAt cur.deq with
    | none => rfl
    | some trb =>
      have apart : trb.cycle ≠ cur.dcs := by simpa [Guest.owned, found] using foreign
      dsimp only
      rw [if_pos apart]

section
variable (here : g.owned cur = some trb)
include here

theorem collectLoop_link (link : trb.type = typeLink) :
    collectLoop g (guard + 1) cur trbs
      = collectLoop g guard ⟨trb.ptr &&& ~~~ 0x3F, if trb.toggles then !cur.dcs else cur.dcs⟩ trbs := by
  obtain ⟨found, own⟩ := owned_eq_some here
  rw [collectLoop, found]
  dsimp only
  rw [if_neg own, if_pos link]

theorem collectLoop_last (other : trb.type ≠ typeLink)
    (final : trb.chained = false) :
    collectLoop g (guard + 1) cur trbs = some ⟨keep trbs (cur.deq, trb), cur.advance⟩ := by
  obtain ⟨found, own⟩ := owned_eq_some here
  rw [collectLoop, found]
  dsimp only
  rw [if_neg own, if_neg other, if_pos (by simp [final])]
  rfl

theorem collectLoop_more (other : trb.type ≠ typeLink)
    (chained : trb.chained = true) :
    collectLoop g (guard + 1) cur trbs = collectLoop g guard cur.advance (keep trbs (cur.deq, trb)) := by
  obtain ⟨found, own⟩ := owned_eq_some here
  rw [collectLoop, found]
  dsimp only
  rw [if_neg own, if_neg other, if_neg (by simp [chained])]
  rfl
end

end Collect

/-- What every chained TRB keeps, and the last one turns into the result, holds of what is collected. -/
theorem collectLoop_rule {g : Guest} {inv result : List (Addr × Trb) → Prop}
    (more : ∀ trbs cur trb, inv trbs → g.owned cur = some trb → trb.chained = true →
      inv (keep trbs (cur.deq, trb)))
    (last : ∀ trbs cur trb, inv trbs → g.owned cur = some trb → trb.chained = false →
      result (keep trbs (cur.deq, trb)))
    (guard : Nat) (cur : Cursor) {trbs : List (Addr × Trb)} (start : inv trbs) {td : Td}
    (collected : collectLoop g guard cur trbs = some td) : result td.trbs := by
  induction guard generalizing cur trbs with
  | zero => simp [collectLoop] at collected
  | succ guard ih =>
    cases here : g.owned cur with
    | none => simp [collectLoop_foreign _ _ here] at collected
    | some trb =>
      by_cases link : trb.type = typeLink
      · rw [collectLoop_link _ _ here link] at collected
        exact ih _ start collected
      · cases chained : trb.chained with
        | false =>
          rw [collectLoop_last _ _ here link chained] at collected
          obtain rfl := Option.some.inj collected
          exact last trbs cur trb start here chained
        | true =>
          rw [collectLoop_more _ _ here link chained] at collected
          exact ih _ (more trbs cur trb start here chained) collected

/-! What a device may be handed, and the descriptors that keep to it. -/

def Call.Valid (g : Guest) (call : Call) : Prop :=
  call.len = 0 ∨
    match call.buf with
    | .null => False
    | .dma ptr size => g.reach ptr size = true ∧ call.len ≤ size
    | .scratch => call.len ≤ 4096

def Trb.reached (g : Guest) (t : Trb) : Bool := decide (t.len ≠ 0) && g.reach t.ptr t.len

def Td.data (td : Td) : List Trb := (td.trbs.map Prod.snd).filter fun t => t.type = typeData

/-- The last Data Stage TRB is no longer than the last one that was reached. -/
def ControlBuffers (g : Guest) (td : Td) : Prop :=
  (∃ e ∈ td.trbs, e.2.type = typeSetup) →
    ∀ t ∈ td.data.getLast?, ∀ r ∈ (td.data.filter (Trb.reached g)).getLast?, t.len ≤ r.len

def NormalBuffers (g : Guest) (td : Td) : Prop :=
  ∀ e ∈ td.trbs, e.2.type ≠ typeEventData → e.2.len ≠ 0 → g.reach e.2.ptr e.2.len = true

def Buffers (g : Guest) (dci : Nat) (td : Td) : Prop := if dci = 1 then ControlBuffers g td else NormalBuffers g td

section Control
variable (g : Guest)

theorem xhciTrbBuf_eq (t : Trb) : xhciTrbBuf g t.ptr t.len = if t.reached g then .dma t.ptr t.len else .null := by
  unfold xhciTrbBuf Trb.reached
  by_cases empty : t.len = 0 <;> simp [empty]

theorem scan_setup (s : Stages) (e : Addr × Trb) :
    (s.scan g e).setup.isSome = true ↔ s.setup.isSome = true ∨ e.2.type = typeSetup := by
  unfold Stages.scan
  dsimp only
  by_cases setup : e.2.type = typeSetup
  · simp [setup]
  · split_ifs <;> simp [setup]

theorem scan_data (s : Stages) (e : Addr × Trb) :
    (s.scan g e).dataLen = (if e.2.type = typeData then e.2.len else s.dataLen) ∧
      (s.scan g e).dataBuf
        = if e.2.type = typeData ∧ e.2.reached g = true then .dma e.2.ptr e.2.len else s.dataBuf := by
  unfold Stages.scan
  by_cases setup : e.2.type = typeSetup
  · simp [setup, typeSetup, typeData]
  · by_cases data : e.2.type = typeData
    · by_cases reached : e.2.reached g = true <;> simp [data, xhciTrbBuf_eq, reached, typeSetup, typeData]
    · simp only [data, false_and, if_false]
      split_ifs <;> simp

theorem stages_setup (td : Td) : (stages g td).setup.isSome = true ↔ ∃ e ∈ td.trbs, e.2.type = typeSetup := by
  obtain ⟨trbs, next⟩ := td
  simp only [stages]
  induction trbs using reverseRecOn with
  | nil => simp
  | append_singleton trbs e ih =>
    simp only [foldl_append, foldl_cons, foldl_nil, scan_setup, ih, mem_append,
      mem_singleton, or_and_right, exists_or, exists_eq_left]

theorem stages_data (td : Td) :
    (stages g td).dataLen = (td.data.getLast?.map Trb.len).getD 0 ∧
      (stages g td).dataBuf
        = ((td.data.filter (Trb.reached g)).getLast?.map fun t => Buf.dma t.ptr t.len).getD .null := by
  obtain ⟨trbs, next⟩ := td
  simp only [stages, Td.data]
  induction trbs using reverseRecOn with
  | nil => simp
  | append_singleton trbs e ih =>
    simp only [foldl_append, foldl_cons, foldl_nil, scan_data, ih, map_append, map_cons,
      map_nil, filter_append]
    by_cases data : e.2.type = typeData
    · by_cases reached : e.2.reached g = true <;> simp [data, reached]
    · simp [data]

theorem control_buffers_iff (ret : Int) (td : Td) :
    (∀ call ∈ (xhciRunControlTd g ret td).calls, call.Valid g) ↔ ControlBuffers g td := by
  unfold ControlBuffers
  rw [← stages_setup g td]
  obtain ⟨len, buf⟩ := stages_data g td
  cases setup : (stages g td).setup with
  | none => simp [xhciRunControlTd, setup]
  | some request =>
    have calls : (xhciRunControlTd g ret td).calls = [(stages g td).call request] := by
      simp only [xhciRunControlTd, setup]
      split_ifs <;> rfl
    simp only [calls, mem_singleton, forall_eq, isSome_some, forall_const, Stages.call]
    cases last : td.data.getLast? with
    | none => simp [len, last, Call.Valid]
    | some t =>
      cases reached : (td.data.filter (Trb.reached g)).getLast? with
      | none =>
        by_cases empty : t.len = 0 <;> simp [len, buf, last, reached, empty, Call.Valid]
      | some r =>
        have found := (mem_filter.mp (mem_of_getLast? reached)).2
        simp only [Trb.reached, Bool.and_eq_true, decide_eq_true_eq] at found
        simp only [len, buf, last, reached, map_some, getD_some, reduceCtorEq, and_false,
          if_false, Call.Valid, found.2, true_and, mem_def, some.injEq, forall_eq']
        omega

end Control

section Normal
variable (g : Guest)

def Trb.call (t : Trb) : Call := ⟨none, xhciTrbBuf g t.ptr t.len, t.len⟩

def asked (trbs : List (Addr × Trb)) : List Call :=
  (trbs.filter fun e => e.2.type ≠ typeEventData).map fun e => e.2.call g

theorem asked_event {addr : Addr} {trb : Trb} (rest : List (Addr × Trb)) (event : trb.type = typeEventData) :
    asked g ((addr, trb) :: rest) = asked g rest := by
  simp [asked, event]

theorem asked_cons {addr : Addr} {trb : Trb} (rest : List (Addr × Trb)) (other : trb.type ≠ typeEventData) :
    asked g ((addr, trb) :: rest) = trb.call g :: asked g rest := by
  simp [asked, other]

theorem answer_cases (r : Int) : r = rvvmUsbXferAsync ∨ r ≠ rvvmUsbXferAsync ∧ r < 0 ∨ 0 ≤ r := by
  omega

section Rounds
variable {rets : Nat → Int} {last addr : Addr} {i : Nat} {t : Tally} {trb : Trb} {rest : List (Addr × Trb)}

theorem normalLoop_event (event : trb.type = typeEventData) :
    ∃ t', t'.total = t.total ∧
      normalLoop g rets last i t ((addr, trb) :: rest) = normalLoop g rets last (i + 1) t' rest := by
  refine ⟨{ t with ioc := trb.ptr, interrupter := if trb.ioc then trb.interrupter else t.interrupter }, rfl, ?_⟩
  rw [normalLoop]
  rw [if_pos event]

section
variable (other : trb.type ≠ typeEventData)
include other

theorem normalLoop_async (async : rets i = rvvmUsbXferAsync) :
    normalLoop g rets last i t ((addr, trb) :: rest)
      = ⟨[trb.call g], [], some ⟨last, t.interrupter, t.total + trb.len + trb.len⟩⟩ := by
  rw [normalLoop]
  rw [if_neg other, if_pos async]
  rfl

theorem normalLoop_stall (now : rets i ≠ rvvmUsbXferAsync)
    (stall : rets i < 0) :
    normalLoop g rets last i t ((addr, trb) :: rest)
      = ⟨[trb.call g], [⟨addr, 0, compStall, t.interrupter⟩], none⟩ := by
  rw [normalLoop]
  rw [if_neg other, if_neg now, if_pos stall]
  rfl

theorem normalLoop_next (fine : 0 ≤ rets i) :
    ∃ t', t'.total = t.total + trb.len ∧
      normalLoop g rets last i t ((addr, trb) :: rest)
        = { normalLoop g rets last (i + 1) t' rest with
            calls := trb.call g :: (normalLoop g rets last (i + 1) t' rest).calls } := by
  have now : rets i ≠ rvvmUsbXferAsync := by
    unfold rvvmUsbXferAsync
    omega
  refine ⟨⟨t.total + trb.len, (t.done + (rets i).toNat) % 2 ^ 32,
    if trb.ioc then trb.interrupter else t.interrupter, t.ioc⟩, rfl, ?_⟩
  rw [normalLoop]
  rw [if_neg other, if_neg now, if_neg (not_lt.mpr fine)]
  rfl
end

end Rounds

variable (rets : Nat → Int) (last : Addr)

theorem normalLoop_calls (i : Nat) (t : Tally) (trbs : List (Addr × Trb)) :
    (normalLoop g rets last i t trbs).calls <+: asked g trbs := by
  induction trbs generalizing i t with
  | nil => exact nil_prefix
  | cons e rest ih =>
    obtain ⟨addr, trb⟩ := e
    by_cases event : trb.type = typeEventData
    · obtain ⟨t', -, loop⟩ := normalLoop_event g event
      rw [loop, asked_event g rest event]
      exact ih _ _
    · rw [asked_cons g rest event]
      rcases answer_cases (rets i) with async | ⟨now, stall⟩ | fine
      · rw [normalLoop_async g event async]
        exact (prefix_cons_inj _).mpr nil_prefix
      · rw [normalLoop_stall g event now stall]
        exact (prefix_cons_inj _).mpr nil_prefix
      · obtain ⟨t', -, loop⟩ := normalLoop_next g event fine
        rw [loop]
        exact (prefix_cons_inj _).mpr (ih _ _)

/-- Every TRB but the last that asks for a transfer is answered at once and without an error. -/
def prompt : Nat → List (Addr × Trb) → Bool
  | _, [] => true
  | i, (_, trb) :: rest =>
    (trb.type == typeEventData || decide (0 ≤ rets i) || rest.all fun e => e.2.type == typeEventData) &&
      prompt (i + 1) rest

theorem normalLoop_prompt (i : Nat) (t : Tally) (trbs : List (Addr × Trb)) (answered : prompt rets i trbs = true) :
    (normalLoop g rets last i t trbs).calls = asked g trbs := by
  induction trbs generalizing i t with
  | nil => rfl
  | cons e rest ih =>
    obtain ⟨addr, trb⟩ := e
    simp only [prompt, Bool.and_eq_true, Bool.or_eq_true, beq_iff_eq, decide_eq_true_eq] at answered
    obtain ⟨here, later⟩ := answered
    by_cases event : trb.type = typeEventData
    · obtain ⟨t', -, loop⟩ := normalLoop_event g event
      rw [loop, asked_event g rest event]
      exact ih _ _ later
    · have only (late : ¬ 0 ≤ rets i) : asked g rest = [] := by
        have events : (rest.all fun e => e.2.type == typeEventData) = true := by simpa [event, late] using here
        simpa [asked] using events
      rw [asked_cons g rest event]
      rcases answer_cases (rets i) with async | ⟨now, stall⟩ | fine
      · rw [normalLoop_async g event async, only (by rw [async]; decide)]
      · rw [normalLoop_stall g event now stall, only (by omega)]
      · obtain ⟨t', -, loop⟩ := normalLoop_next g event fine
        rw [loop, ih _ _ later]

theorem prompt_of_fine (fine : ∀ i, 0 ≤ rets i) (i : Nat) (trbs : List (Addr × Trb)) :
    prompt rets i trbs = true := by
  induction trbs generalizing i with
  | nil => rfl
  | cons e rest ih => simp [prompt, fine i, ih (i + 1)]

theorem normalLoop_completes (fine : ∀ i, 0 ≤ rets i) (i : Nat) (t : Tally) (trbs : List (Addr × Trb)) :
    (normalLoop g rets last i t trbs).pending = none := by
  induction trbs generalizing i t with
  | nil => rfl
  | cons e rest ih =>
    obtain ⟨addr, trb⟩ := e
    by_cases event : trb.type = typeEventData
    · obtain ⟨t', -, loop⟩ := normalLoop_event g event
      rw [loop]
      exact ih _ _
    · obtain ⟨t', -, loop⟩ := normalLoop_next g event (fine i)
      rw [loop]
      exact ih _ _

theorem call_valid_iff (t : Trb) : (t.call g).Valid g ↔ (t.len ≠ 0 → g.reach t.ptr t.len = true) := by
  unfold Call.Valid Trb.call
  rw [xhciTrbBuf_eq]
  unfold Trb.reached
  by_cases empty : t.len = 0
  · simp [empty]
  · by_cases reach : g.reach t.ptr t.len = true <;> simp [empty, reach]

end Normal

section Ring
variable (g : Guest) (dci : Nat)

theorem td_buffers_valid (rets : Nat → Int) (td : Td) (fit : Buffers g dci td) :
    ∀ call ∈ (xhciRunTd g dci rets td).calls, call.Valid g := by
  unfold Buffers at fit
  unfold xhciRunTd
  split_ifs at fit ⊢ with control
  · exact (control_buffers_iff g (rets 0) td).mpr fit
  · intro call member
    have inside := (normalLoop_calls g rets td.last 0 _ td.trbs).subset member
    obtain ⟨e, found, rfl⟩ := mem_map.mp inside
    obtain ⟨here, other⟩ := mem_filter.mp found
    exact (call_valid_iff g e.2).mpr (fit e here (of_decide_eq_true other))

theorem td_buffers_of_valid (td : Td) (valid : ∀ call ∈ (xhciRunTd g dci (fun _ => 0) td).calls, call.Valid g) :
    Buffers g dci td := by
  unfold Buffers
  unfold xhciRunTd at valid
  split_ifs at valid ⊢ with control
  · exact (control_buffers_iff g 0 td).mp valid
  · intro e found other
    have all := prompt_of_fine (fun _ => 0) (fun _ => le_refl 0) 0 td.trbs
    refine (call_valid_iff g e.2).mp (valid _ ?_)
    rw [xhciRunNormalTd, normalLoop_prompt g _ _ 0 _ td.trbs all]
    exact mem_map.mpr ⟨e, mem_filter.mpr ⟨found, decide_eq_true other⟩, rfl⟩

theorem runTd_completes (td : Td) : (xhciRunTd g dci (fun _ => 0) td).pending = none := by
  unfold xhciRunTd
  split_ifs with control
  · cases setup : (stages g td).setup <;> simp [xhciRunControlTd, setup, rvvmUsbXferAsync]
  · exact normalLoop_completes g _ td.last (fun _ => le_refl 0) 0 _ td.trbs

theorem ringLoop_calls (rets : Nat → Nat → Int) (rounds k : Nat) (cur : Cursor) :
    ∀ call ∈ (ringLoop g dci rets rounds k cur).calls,
      ∃ n td, nthTd g n cur = some td ∧ call ∈ (xhciRunTd g dci (rets (k + n)) td).calls := by
  induction rounds generalizing k cur with
  | zero => simp [ringLoop, Walk.calls]
  | succ rounds ih =>
    intro call member
    unfold ringLoop at member
    cases collected : xhciCollectTd g cur with
    | none => simp [collected, Walk.calls] at member
    | some td =>
      simp only [collected] at member
      split_ifs at member with pending
      · exact ⟨0, td, collected, by simpa [Walk.calls] using member⟩
      · simp only [Walk.calls, flatMap_cons, mem_append] at member
        rcases member with here | later
        · exact ⟨0, td, collected, here⟩
        · obtain ⟨n, td', found, asked⟩ := ih (k + 1) td.next call later
          refine ⟨n + 1, td', by simp [nthTd, collected, found], ?_⟩
          rwa [Nat.add_right_comm] at asked

theorem ringLoop_asks (n k : Nat) (cur : Cursor) {td : Td} (found : nthTd g n cur = some td) :
    ∀ call ∈ (xhciRunTd g dci (fun _ => 0) td).calls,
      call ∈ (ringLoop g dci (fun _ _ => 0) (n + 1) k cur).calls := by
  intro call asked
  induction n generalizing k cur with
  | zero =>
    have collected : xhciCollectTd g cur = some td := found
    simp [ringLoop, collected, runTd_completes, Walk.calls, asked]
  | succ n ih =>
    obtain ⟨first, collected, later⟩ := bind_eq_some_iff.mp found
    have rest := ih (k + 1) first.next later
    rw [ringLoop, collected]
    simp only [runTd_completes, isSome_none, Bool.false_eq_true, if_false, Walk.calls, flatMap_cons,
      mem_append]
    exact Or.inr rest

/-- A device is handed only buffers that hold what is asked of it exactly when every descriptor on the ring of a
doorbell that is served pairs its buffers with their lengths. -/
theorem doorbell_buffers_valid (slots : Nat → Slot) (id : Nat) (val : BitVec 32) :
    (∀ rets rounds, ∀ call ∈ (xhciDoorbellWrite g slots rets rounds id val).calls, call.Valid g) ↔
      (served slots id (doorbellDci val) = true →
        ∀ n td, nthTd g n ((slots id).eps (doorbellDci val)).cursor = some td →
          Buffers g (doorbellDci val) td) := by
  unfold xhciDoorbellWrite xhciRunTransferRing
  by_cases run : served slots id (doorbellDci val) = true
  · simp only [run, if_true, forall_const]
    constructor
    · intro valid n td found
      apply td_buffers_of_valid
      intro call asked
      exact valid _ _ call (ringLoop_asks g _ n 0 _ found call asked)
    · intro fit rets rounds call member
      obtain ⟨n, td, found, asked⟩ := ringLoop_calls g _ rets rounds 0 _ call member
      exact td_buffers_valid g _ _ td (fit n td found) call asked
  · simp [run, Walk.calls]

end Ring

def mixedGuest : Guest :=
  { trbAt := fun a =>
      if a = 0x1000 then some ⟨0, 8, 0x811⟩
      else if a = 0x1010 then some ⟨0x8000, 8, 0xC11⟩
      else if a = 0x1020 then some ⟨0xFFFF0000, 4096, 0xC11⟩
      else if a = 0x1030 then some ⟨0, 0, 0x1021⟩
      else none
    reach := fun a _ => a = 0x8000 }

def readySlots : Nat → Slot := fun _ => ⟨true, true, fun _ => ⟨true, none, ⟨0x1000, true⟩⟩⟩

theorem mixed_chain_overruns :
    (xhciDoorbellWrite mixedGuest readySlots (fun _ _ => 0) 2 1 1).calls = [⟨some 0, .dma 0x8000 8, 4096⟩] ∧
      ¬ Call.Valid mixedGuest ⟨some 0, .dma 0x8000 8, 4096⟩ ∧
      (xhciDoorbellWrite mixedGuest readySlots (fun _ _ => 0) 2 1 3).calls.getLast? = some ⟨none, .null, 0⟩ ∧
      ⟨none, .null, 4096⟩ ∈ (xhciDoorbellWrite mixedGuest readySlots (fun _ _ => 0) 2 1 3).calls ∧
      ¬ Call.Valid mixedGuest ⟨none, .null, 4096⟩ := by
  refine ⟨by decide +kernel, ?_, by decide +kernel, by decide +kernel, ?_⟩ <;> simp [Call.Valid]

end Rvvm.XhciRing
