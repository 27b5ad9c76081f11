import Rvvm.Devices.NvmeQueues
import Rvvm.Library.Slices

/-! Transmission in the RTL8169: two descriptor rings whose segments are put together in one shared buffer.
Which descriptors a doorbell goes through depends on guest memory alone; what it sends depends on the buffer. -/
namespace Rvvm.Rtl8169
open List Option Runs Slices
open BitVec hiding append_assoc
open BitVec (ofNat)
open Function (update update_of_ne)
open Nvme (PciFunc pciGetDmaPtr writeUint32Le)

def descOwn : BitVec 32 := 0x80000000
def descEor : BitVec 32 := 0x40000000
def descFs : BitVec 32 := 0x20000000
def descLs : BitVec 32 := 0x10000000
def descTxsta : BitVec 32 := 0x70000000

def maxFifoSize : Nat := 0x400
def maxPktSize : Nat := 0x4000

def crTe : BitVec 32 := 0x04
def crRw : BitVec 32 := 0x0C
def crRst : BitVec 32 := 0x10

def tpollFsw : BitVec 32 := 0x01
def tpollNpq : BitVec 32 := 0x40
def tpollHpq : BitVec 32 := 0x80

def irqTok : Nat := 0x02
def irqTer : Nat := 0x03
def irqSwi : Nat := 0x10

/-- `rtl8169_ring_t`. -/
structure TxRing where
  addr : BitVec 32
  addrH : BitVec 32
  index : BitVec 32
  inside : index.toNat < maxFifoSize

def TxRing.reset : TxRing := ⟨0, 0, 0, by decide⟩

def TxRing.base (ring : TxRing) : Addr := ring.addr.setWidth 64 ||| ring.addrH.setWidth 64 <<< 32

def TxRing.advance (ring : TxRing) (eor : Bool) : TxRing :=
  if wraps : eor = true ∨ maxFifoSize ≤ (ring.index + 1).toNat then { ring with index := 0, inside := by decide }
  else { ring with index := ring.index + 1, inside := by omega }

/-- A descriptor the device owns, with the bytes of its buffer where the buffer is accessible. -/
structure TxDesc where
  flags : BitVec 32
  data : Option (List Byte)
  sized : ∀ bytes ∈ data, bytes.length = (flags &&& 0x3FFF).toNat

def TxDesc.eor (d : TxDesc) : Bool := d.flags &&& descEor != 0
def TxDesc.fs (d : TxDesc) : Bool := d.flags &&& descFs != 0
def TxDesc.ls (d : TxDesc) : Bool := d.flags &&& descLs != 0

def bytesAt (host : HostMem) (ptr : Addr) (size : Nat) : List Byte :=
  (range size).map fun k => host (ptr + ofNat 64 k)

/-- The descriptor at the ring's index, and the pointer to it. -/
def txFetch (f : PciFunc) (base : Addr) (host : HostMem) (index : BitVec 32) : Option (Addr × TxDesc) :=
  (pciGetDmaPtr f (base + (index <<< 4).setWidth 64) 0x10).bind fun desc =>
    let flags := readUint32Le host desc
    if flags &&& descOwn = 0 then none
    else
      let size := (flags &&& 0x3FFF).toNat
      some (desc, ⟨flags, (pciGetDmaPtr f (readUint64Le host (desc + 8)) size).map (bytesAt host · size), by
        intro bytes found
        obtain ⟨ptr, _, rfl⟩ := map_eq_some_iff.mp found
        rw [bytesAt, length_map, length_range]⟩)

/-- The reassembly buffer. A broken packet leaves all ones for its size. -/
structure TxSeg where
  buff : Nat → Byte
  size : Addr

/-- What is done with a descriptor's buffer: the reassembly buffer afterwards, the frame handed to the network
and whether a transmit error is reported. -/
def txSegment (seg : TxSeg) (d : TxDesc) : TxSeg × Option (List Byte) × Bool :=
  match d.data with
  | none => ({ seg with size := -1 }, none, false)
  | some bytes =>
    if d.fs && d.ls then (seg, some bytes, false)
    else
      let size := if d.fs then 0 else seg.size
      if size < ofNat 64 maxPktSize - ofNat 64 bytes.length then
        let buff := store seg.buff size.toNat bytes
        let size := size + ofNat 64 bytes.length
        if d.ls then (⟨buff, 0⟩, some (load buff 0 size.toNat), false)
        else (⟨buff, size⟩, none, false)
      else ({ seg with size := -1 }, none, true)

/-- The variables of a doorbell. `done` records each descriptor with the frame sent in its round. -/
structure TxRun where
  ring : TxRing
  seg : TxSeg
  host : HostMem
  isr : BitVec 32
  txIrq : Bool
  done : List (TxDesc × Option (List Byte))

/-- One round of the loop, `none` where it is left. -/
def txRound (f : PciFunc) (base : Addr) (r : TxRun) : Option TxRun :=
  (txFetch f base r.host r.ring.index).map fun (desc, d) =>
    let (seg, sent, error) := txSegment r.seg d
    { ring := r.ring.advance d.eor
      seg
      host := writeUint32Le r.host desc (d.flags &&& descTxsta)
      isr := if error then r.isr ||| 1 <<< irqTer else r.isr
      txIrq := true
      done := r.done ++ [(d, sent)] }

def txRounds (f : PciFunc) (base : Addr) : Nat → TxRun → TxRun
  | 0, r => r
  | n + 1, r => (txRound f base r).elim r (txRounds f base n)

inductive TxQueue
  | normal
  | high
  deriving DecidableEq

/-- What `rtl8169_dev_t` holds for transmission. -/
structure TxDevice where
  rings : TxQueue → TxRing
  cr : BitVec 32
  isr : BitVec 32
  seg : TxSeg

def TxDevice.interrupt (dev : TxDevice) (irq : Nat) : TxDevice := { dev with isr := dev.isr ||| 1 <<< irq }

def TxDevice.setRing (dev : TxDevice) (q : TxQueue) (ring : TxRing) : TxDevice :=
  { dev with rings := update dev.rings q ring }

/-- The loop of a doorbell as it is entered. -/
def TxDevice.enter (dev : TxDevice) (q : TxQueue) (host : HostMem) : TxRun :=
  ⟨dev.rings q, dev.seg, host, dev.isr, false, []⟩

/-- The device and memory after a doorbell, and what its rounds did. -/
structure TxRang where
  dev : TxDevice
  host : HostMem
  done : List (TxDesc × Option (List Byte))

def rtl8169TxDoorbell (f : PciFunc) (dev : TxDevice) (q : TxQueue) (host : HostMem) : TxRang :=
  if dev.cr &&& crTe = 0 then ⟨dev, host, []⟩
  else
    let r := txRounds f (dev.rings q).base maxFifoSize (dev.enter q host)
    let dev := { dev with rings := update dev.rings q r.ring, isr := r.isr, seg := r.seg }
    ⟨if r.txIrq then dev.interrupt irqTok else dev, r.host, r.done⟩

structure TxPolled where
  high : TxRang
  normal : TxRang

def txPoll (f : PciFunc) (dev : TxDevice) (host : HostMem) (val : BitVec 32) : TxPolled :=
  let high := if val &&& tpollHpq = 0 then ⟨dev, host, []⟩ else rtl8169TxDoorbell f dev .high host
  let normal :=
    if val &&& tpollNpq = 0 then ⟨high.dev, high.host, []⟩ else rtl8169TxDoorbell f high.dev .normal high.host
  ⟨high, normal⟩

/-- A register write, with the function and the guest memory it finds. -/
structure TxWrite where
  f : PciFunc
  host : HostMem
  offset : Nat
  val : BitVec 32

def rtl8169Reset (dev : TxDevice) : TxDevice := { dev with rings := fun _ => .reset, cr := 0, isr := 0 }

def txSetAddr (dev : TxDevice) (q : TxQueue) (upper : Bool) (val : BitVec 32) : TxDevice :=
  dev.setRing q <|
    if upper then { dev.rings q with addrH := val } else { dev.rings q with addr := val &&& ~~~ 0xFF }

inductive TxReg
  | txda1
  | txda2
  | txha1
  | txha2
  | cr
  | tpoll
  | isr
  | other
  deriving DecidableEq

def txReg : Nat → TxReg
  | 0x20 => .txda1
  | 0x24 => .txda2
  | 0x28 => .txha1
  | 0x2C => .txha2
  | 0x37 => .cr
  | 0x38 => .tpoll
  | 0x3E => .isr
  | _ => .other

def rtl8169PciWrite (dev : TxDevice) (w : TxWrite) : TxDevice :=
  match txReg w.offset with
  | .txda1 => txSetAddr dev .normal false w.val
  | .txda2 => txSetAddr dev .normal true w.val
  | .txha1 => txSetAddr dev .high false w.val
  | .txha2 => txSetAddr dev .high true w.val
  | .cr =>
    let dev := { dev with cr := w.val &&& crRw }
    if w.val &&& crRst = 0 then dev else rtl8169Reset dev
  | .tpoll =>
    let dev := (txPoll w.f dev w.host w.val).normal.dev
    if w.val &&& tpollFsw = 0 then dev else dev.interrupt irqSwi
  | .isr => { dev with isr := dev.isr &&& ~~~ w.val }
  | .other => dev

def rtl8169Init : TxDevice := ⟨fun _ => .reset, 0, 0, ⟨fun _ => 0, 0⟩⟩

/-! What a frame is made of. -/

/-- A packet's descriptors up to some point: the first one, and only it, starts a packet. -/
def Headed (group : List TxDesc) : Prop :=
  ∃ d rest, group = d :: rest ∧ d.fs = true ∧ ∀ e ∈ rest, e.fs = false

def OpenGroup (group : List TxDesc) : Prop := Headed group ∧ ∀ e ∈ group, e.ls = false

/-- From a first segment to the first last segment after it. -/
def PacketGroup (group : List TxDesc) : Prop :=
  Headed group ∧ ∃ segs last, group = segs ++ [last] ∧ last.ls = true ∧ ∀ e ∈ segs, e.ls = false

def Accessible (group : List TxDesc) : Prop := ∀ e ∈ group, e.data.isSome

def groupBytes (group : List TxDesc) : List Byte := group.flatMap fun e => e.data.getD []

/-- The packet that ends with the last of a ring's descriptors. -/
def IsFrame (history : List TxDesc) (frame : List Byte) : Prop :=
  ∃ before group, history = before ++ group ∧ PacketGroup group ∧ Accessible group ∧
    groupBytes group = frame ∧ frame.length < maxPktSize

/-- What a round may send, `history` being the descriptors of its ring up to its own. -/
structure TxLawful (history : List TxDesc) (sent : Option (List Byte)) : Prop where
  whole : ∀ frame, sent = some frame → IsFrame history frame
  broken : ∀ before group, history = before ++ group → PacketGroup group →
    ¬ Accessible group ∨ maxPktSize ≤ (groupBytes group).length → sent = none
  stray : (¬ ∃ before group, history = before ++ group ∧ PacketGroup group) → sent = none

theorem Headed.unique {before before' group group' : List TxDesc} (headed : Headed group) (headed' : Headed group')
    (same : before ++ group = before' ++ group') : group = group' := by
  rcases append_eq_append_iff.mp same with ⟨skipped, longer, eq⟩ | ⟨skipped, longer, eq⟩
  · obtain ⟨d, rest, rfl, _, continues⟩ := headed
    obtain ⟨d', rest', rfl, starts, _⟩ := headed'
    cases skipped with
    | nil => exact eq
    | cons e skipped =>
      obtain ⟨_, rfl⟩ := cons_eq_cons.mp eq
      rw [continues d' (mem_append_right _ mem_cons_self)] at starts
      cases starts
  · obtain ⟨d, rest, rfl, starts, _⟩ := headed
    obtain ⟨d', rest', rfl, _, continues⟩ := headed'
    cases skipped with
    | nil => exact eq.symm
    | cons e skipped =>
      obtain ⟨_, rfl⟩ := cons_eq_cons.mp eq
      rw [continues d (mem_append_right _ mem_cons_self)] at starts
      cases starts

theorem TxLawful.nothing (history : List TxDesc) : TxLawful history none :=
  ⟨nofun, fun _ _ _ _ _ => rfl, fun _ => rfl⟩

variable {frame : List Byte}

theorem IsFrame.lawful {history : List TxDesc} (framed : IsFrame history frame) :
    TxLawful history (some frame) := by
  refine ⟨fun other sent => some.inj sent ▸ framed, fun before' group' split' packet' bad => ?_,
    fun none => ?_⟩
  · obtain ⟨before, group, split, packet, accessible, bytes, short⟩ := framed
    have one := packet.1.unique packet'.1 (split.symm.trans split')
    subst one
    rcases bad with hidden | long
    · exact absurd accessible hidden
    · rw [bytes] at long
      omega
  · obtain ⟨before, group, split, packet, _⟩ := framed
    exact absurd ⟨before, group, split, packet⟩ none

/-! The history of the two rings. -/

/-- `past` holds the descriptors each ring went through since its address was last set, `pending` the ring whose
packet is being put together. -/
structure TxHistory where
  past : TxQueue → List TxDesc
  pending : Option TxQueue

namespace TxHistory
variable (h : TxHistory) (q : TxQueue)

/-- A packet in one descriptor passes by the packet another ring is at. -/
def take (d : TxDesc) : TxHistory where
  past := update h.past q (h.past q ++ [d])
  pending :=
    if d.fs && d.ls then if h.pending = some q then none else h.pending
    else if d.ls then none
    else some q

def forget : TxHistory where
  past := update h.past q []
  pending := if h.pending = some q then none else h.pending

/-- A descriptor that does not start a packet continues the one being put together. -/
def Orderly (d : TxDesc) : Prop := d.fs = true ∨ h.pending = some q

def takes (ds : List TxDesc) : TxHistory := final (fun h d => h.take q d) h ds

def AllOrderly (ds : List TxDesc) : Prop := AllSteps (fun h d => h.take q d) (fun h d => h.Orderly q d) h ds

@[simp] theorem past_take (d : TxDesc) : (h.take q d).past q = h.past q ++ [d] := Function.update_self ..

theorem past_take_of_ne {q q' : TxQueue} (other : q' ≠ q) (d : TxDesc) : (h.take q d).past q' = h.past q' :=
  update_of_ne other ..

end TxHistory

/-- The buffer holds the packet of the pending ring, unless that packet is broken. -/
def SegTrace (h : TxHistory) (seg : TxSeg) : Prop :=
  seg.size = -1 ∨ seg.size.toNat < maxPktSize ∧ ∀ q, h.pending = some q →
    ∃ before group, h.past q = before ++ group ∧ OpenGroup group ∧ Accessible group ∧
      groupBytes group = load seg.buff 0 seg.size.toNat

theorem fits_iff {size : Addr} {len : Nat} (short : len < maxPktSize) :
    size < ofNat 64 maxPktSize - ofNat 64 len ↔ size.toNat + len < maxPktSize := by
  unfold maxPktSize at *
  have room : (ofNat 64 0x4000 - ofNat 64 len).toNat = 0x4000 - len := by
    rw [toNat_sub, toNat_ofNat, toNat_ofNat]
    omega
  rw [lt_def]
  omega

variable {bytes : List Byte}

theorem TxDesc.short (d : TxDesc) (found : d.data = some bytes) :
    bytes.length < maxPktSize := by
  rw [d.sized bytes found]
  exact Nat.lt_of_le_of_lt Nat.and_le_right (by decide)

theorem load_store_end (m : Nat → Byte) (n : Nat) (xs : List Byte) :
    load (store m n xs) 0 (n + xs.length) = load m 0 n ++ xs := by
  have before : load (store m n xs) 0 n = load m 0 n := load_store_apart m (.inl (by omega))
  rw [load_add, before, Nat.zero_add, load_store]

variable {d : TxDesc}

theorem OpenGroup.concat {group : List TxDesc} (opened : OpenGroup group) (continues : d.fs = false) :
    Headed (group ++ [d]) := by
  obtain ⟨⟨e, rest, rfl, starts, rest_continues⟩, _⟩ := opened
  refine ⟨e, rest ++ [d], rfl, starts, fun x member => ?_⟩
  rcases mem_append.mp member with old | new
  · exact rest_continues x old
  · rw [mem_singleton.mp new]
    exact continues

theorem headed_single (starts : d.fs = true) : Headed [d] := ⟨d, [], rfl, starts, nofun⟩

theorem accessible_concat {group : List TxDesc} (accessible : Accessible group)
    (found : d.data = some bytes) : Accessible (group ++ [d]) := by
  intro e member
  rcases mem_append.mp member with old | new
  · exact accessible e old
  · rw [mem_singleton.mp new, found]
    rfl

theorem groupBytes_concat (group : List TxDesc) (found : d.data = some bytes) :
    groupBytes (group ++ [d]) = groupBytes group ++ bytes := by
  rw [groupBytes, flatMap_append, flatMap_singleton, found, getD_some, groupBytes]

/-- What is done with a segment that fits at place `size` of the buffer. -/
def txAppend (buff : Nat → Byte) (size : Addr) (ls : Bool) (bytes : List Byte) :
    TxSeg × Option (List Byte) × Bool :=
  let buff := store buff size.toNat bytes
  let size := size + ofNat 64 bytes.length
  if ls then (⟨buff, 0⟩, some (load buff 0 size.toNat), false) else (⟨buff, size⟩, none, false)

theorem txSegment_eq (seg : TxSeg) (found : d.data = some bytes) :
    txSegment seg d =
      if d.fs && d.ls then (seg, some bytes, false)
      else if (if d.fs then 0 else seg.size).toNat + bytes.length < maxPktSize then
        txAppend seg.buff (if d.fs then 0 else seg.size) d.ls bytes
      else ({ seg with size := -1 }, none, true) := by
  simp [txSegment, found, fits_iff (d.short found), txAppend]

variable {h : TxHistory}

/-- The buffer holds the segments before `d`, and `d` joins them. -/
theorem txAppend_lawful {q : TxQueue}
    (found : d.data = some bytes) {before group : List TxDesc} (past : h.past q = before ++ group)
    (headed : Headed (group ++ [d]))
    (opened : ∀ e ∈ group, e.ls = false) (accessible : Accessible group) {buff : Nat → Byte} {size : Addr}
    (holds : groupBytes group = load buff 0 size.toNat) (fits : size.toNat + bytes.length < maxPktSize)
    (several : (d.fs && d.ls) = false) :
    SegTrace (h.take q d) (txAppend buff size d.ls bytes).1 ∧
      TxLawful (h.past q ++ [d]) (txAppend buff size d.ls bytes).2.1 := by
  have total : (size + ofNat 64 bytes.length).toNat = size.toNat + bytes.length := by
    unfold maxPktSize at fits
    rw [toNat_add, toNat_ofNat]
    omega
  have joined : groupBytes (group ++ [d]) = load (store buff size.toNat bytes) 0 (size.toNat + bytes.length) := by
    rw [groupBytes_concat group found, holds, load_store_end]
  have split : h.past q ++ [d] = before ++ (group ++ [d]) := by rw [past, append_assoc]
  have next : (h.take q d).pending = if d.ls then none else some q := by
    simp [TxHistory.take, several]
  cases ends : d.ls with
  | true =>
    rw [ends] at next
    simp only [txAppend, if_true, total]
    have empty : (0 : Addr).toNat < maxPktSize := by decide
    refine ⟨.inr ⟨empty, fun q' pending => ?_⟩, IsFrame.lawful ⟨before, group ++ [d], split,
      ⟨headed, group, d, rfl, ends, opened⟩, accessible_concat accessible found, joined, ?_⟩⟩
    · rw [next] at pending
      cases pending
    · rwa [length_load]
  | false =>
    rw [ends, if_neg nofun] at next
    simp only [txAppend, Bool.false_eq_true, if_false]
    refine ⟨.inr ⟨by rwa [total], fun q' pending => ?_⟩, .nothing _⟩
    rw [next, some.injEq] at pending
    subst pending
    refine ⟨before, group ++ [d], by rw [TxHistory.past_take, split], ⟨headed, fun e member => ?_⟩,
      accessible_concat accessible found, by rw [total, joined]⟩
    rcases mem_append.mp member with old | new
    · exact opened e old
    · rw [mem_singleton.mp new]
      exact ends

variable {seg : TxSeg}

theorem SegTrace.direct (trace : SegTrace h seg) (q : TxQueue)
    (whole : (d.fs && d.ls) = true) : SegTrace (h.take q d) seg := by
  rcases trace with broken | ⟨small, holds⟩
  · exact .inl broken
  · refine .inr ⟨small, fun q' pending => ?_⟩
    simp only [TxHistory.take, whole, if_true] at pending
    split at pending
    · cases pending
    next others =>
      have other : q' ≠ q := by
        rintro rfl
        exact others pending
      rw [h.past_take_of_ne other]
      exact holds q' pending

/-- The round of an orderly descriptor keeps the buffer in step with the history and sends what it may. -/
theorem SegTrace.segment (trace : SegTrace h seg) {q : TxQueue}
    (orderly : h.Orderly q d) :
    SegTrace (h.take q d) (txSegment seg d).1 ∧ TxLawful (h.past q ++ [d]) (txSegment seg d).2.1 := by
  cases found : d.data with
  | none =>
    simp only [txSegment, found]
    exact ⟨.inl rfl, .nothing _⟩
  | some bytes =>
    have empty : Accessible [] := nofun
    rw [txSegment_eq seg found]
    cases whole : d.fs && d.ls with
    | true =>
      obtain ⟨starts, ends⟩ := Bool.and_eq_true_iff.mp whole
      refine ⟨trace.direct q whole, IsFrame.lawful ⟨h.past q, [d], rfl,
        ⟨headed_single starts, [], d, rfl, ends, nofun⟩, ?_, ?_, d.short found⟩⟩
      · exact accessible_concat empty found
      · exact groupBytes_concat [] found
    | false =>
      generalize place : (if d.fs then 0 else seg.size) = size
      by_cases fits : size.toNat + bytes.length < maxPktSize
      · rw [if_pos fits]
        cases starts : d.fs with
        | true =>
          rw [starts] at place
          subst place
          exact txAppend_lawful found (append_nil _).symm (headed_single starts) nofun empty rfl fits
            whole
        | false =>
          rw [starts, if_neg nofun] at place
          subst place
          have pending : h.pending = some q := by
            rcases orderly with first | continued
            · rw [starts] at first
              cases first
            · exact continued
          rcases trace with broken | ⟨_, holds⟩
          · have huge : (-1 : Addr).toNat = 2 ^ 64 - 1 := by decide
            rw [broken] at fits
            unfold maxPktSize at fits
            omega
          · obtain ⟨before, group, past, opened, accessible, held⟩ := holds q pending
            exact txAppend_lawful found past (opened.concat starts) opened.2 accessible held fits whole
      · rw [if_neg fits]
        exact ⟨.inl rfl, .nothing _⟩

section Doorbell
variable (f : PciFunc) (base : Addr)

def txOrigin : Addr := f.machine.mem.data + (base - f.machine.mem.addr)

/-- The byte with the flags' top bit, of the descriptor at index `k`. -/
def txOwner (k : Nat) : Addr := txOrigin f base + ofNat 64 (16 * k) + 3

def txOwned (host : HostMem) : Finset Nat :=
  (Finset.range maxFifoSize).filter fun k => (host (txOwner f base k)).getLsbD 7 = true

theorem readUint32Le_own (host : HostMem) (p : Addr) :
    readUint32Le host p &&& descOwn ≠ 0 ↔ (host (p + 3)).getLsbD 7 = true := by
  have own : descOwn = BitWords.mask 31 := by decide
  have third : p + 2 + 1 = p + 3 := by rw [BitVec.add_assoc]; rfl
  rw [own, BitWords.and_mask_ne_zero, readUint32Le, readUint16Le, third]
  simp only [getLsbD_append]
  rfl

theorem pciGetDmaPtr_eq {f : PciFunc} {addr p : Addr} {size : Nat} (found : pciGetDmaPtr f addr size = some p) :
    p = f.machine.mem.data + (addr - f.machine.mem.addr) := by
  unfold pciGetDmaPtr rvvmGetDmaPtr at found
  split at found
  · split at found
    · exact (some.inj found).symm
    · cases found
  · cases found

variable {f base} {host : HostMem} {ring : TxRing} {desc : Addr} {d : TxDesc}

section
variable (found : txFetch f base host ring.index = some (desc, d))
include found

theorem txFetch_desc :
    desc = txOrigin f base + ofNat 64 (16 * ring.index.toNat) ∧ d.flags = readUint32Le host desc ∧
      d.flags &&& descOwn ≠ 0 := by
  obtain ⟨p, mapped, fetched⟩ := bind_eq_some_iff.mp found
  dsimp only at fetched
  split at fetched
  · cases fetched
  next owned =>
    cases fetched
    refine ⟨?_, rfl, owned⟩
    have inside := ring.inside
    have offset : (ring.index <<< 4).setWidth 64 = ofNat 64 (16 * ring.index.toNat) := by
      unfold maxFifoSize at inside
      apply eq_of_toNat_eq
      rw [toNat_setWidth, toNat_shiftLeft, toNat_ofNat]
      omega
    rw [pciGetDmaPtr_eq mapped, txOrigin]
    bv_omega

theorem txOwned_returned :
    txOwned f base (writeUint32Le host desc (d.flags &&& descTxsta)) =
      (txOwned f base host).erase ring.index.toNat := by
  obtain ⟨rfl, _, _⟩ := txFetch_desc found
  ext k
  simp only [txOwned, Finset.mem_erase, Finset.mem_filter, Finset.mem_range]
  by_cases same : k = ring.index.toNat
  · subst same
    have inside : (3 : Addr) < 4 := by decide
    have cleared : ((d.flags &&& descTxsta).extractLsb' (8 * (3 : Addr).toNat) 8).getLsbD 7 = false := by
      rw [getLsbD_extractLsb', getLsbD_and]
      exact Bool.and_false _
    rw [writeUint32Le, txOwner, HostMem.write_inside host _ inside, cleared]
    simp
  · have kept : k < maxFifoSize → writeUint32Le host (txOrigin f base + ofNat 64 (16 * ring.index.toNat))
        (d.flags &&& descTxsta) (txOwner f base k) = host (txOwner f base k) := by
      intro below
      have inside := ring.inside
      refine host.write_outside _ ?_
      unfold maxFifoSize at below inside
      unfold txOwner
      generalize ring.index.toNat = i at *
      have here : (ofNat 64 (16 * k)).toNat = 16 * k := by
        rw [toNat_ofNat]
        omega
      have there : (ofNat 64 (16 * i)).toNat = 16 * i := by
        rw [toNat_ofNat]
        omega
      bv_omega
    constructor
    · rintro ⟨below, owned⟩
      exact ⟨same, below, by rwa [kept below] at owned⟩
    · rintro ⟨_, below, owned⟩
      exact ⟨below, by rwa [kept below]⟩

end

theorem txRound_card {r r' : TxRun} (round : txRound f base r = some r') :
    (txOwned f base r'.host).card < (txOwned f base r.host).card := by
  obtain ⟨⟨desc, d⟩, found, rfl⟩ := map_eq_some_iff.mp round
  obtain ⟨rfl, flags, owned⟩ := txFetch_desc found
  rw [txOwned_returned found]
  refine Finset.card_erase_lt_of_mem (Finset.mem_filter.mpr ⟨Finset.mem_range.mpr r.ring.inside, ?_⟩)
  rw [flags] at owned
  exact (readUint32Le_own r.host _).mp owned

/-- The loop is left after at most as many rounds as the device owns descriptors. -/
theorem txRounds_stop (n : Nat) (r : TxRun) (enough : (txOwned f base r.host).card ≤ n) :
    txRound f base (txRounds f base n r) = none := by
  induction n generalizing r with
  | zero =>
    cases round : txRound f base r with
    | none => exact round
    | some r' =>
      have fewer := txRound_card round
      omega
  | succ n ih =>
    cases round : txRound f base r with
    | none => rwa [txRounds, round]
    | some r' =>
      have fewer := txRound_card round
      rw [txRounds, round]
      exact ih r' (by omega)

/-- The descriptors a doorbell goes through, and memory once they are given back. -/
def txWalk (f : PciFunc) (base : Addr) : Nat → TxRing → HostMem → List TxDesc × HostMem
  | 0, _, host => ([], host)
  | n + 1, ring, host =>
    match txFetch f base host ring.index with
    | none => ([], host)
    | some (desc, d) =>
      let (ds, host) := txWalk f base n (ring.advance d.eor) (writeUint32Le host desc (d.flags &&& descTxsta))
      (d :: ds, host)

def RoundsLawful : List TxDesc → List (TxDesc × Option (List Byte)) → Prop
  | _, [] => True
  | past, (d, sent) :: done => TxLawful (past ++ [d]) sent ∧ RoundsLawful (past ++ [d]) done

/-- What a doorbell does in up to `n` rounds: it goes through the descriptors of the walk, and where these are
orderly it keeps the buffer in step and is lawful. -/
theorem txRounds_spec (f : PciFunc) (base : Addr) (n : Nat) (r : TxRun) :
    ∃ done, (txRounds f base n r).done = r.done ++ done ∧
      txWalk f base n r.ring r.host = (done.map Prod.fst, (txRounds f base n r).host) ∧
      ∀ (h : TxHistory) (q : TxQueue), h.AllOrderly q (done.map Prod.fst) → SegTrace h r.seg →
        SegTrace (h.takes q (done.map Prod.fst)) (txRounds f base n r).seg ∧ RoundsLawful (h.past q) done := by
  induction n generalizing r with
  | zero => exact ⟨[], (append_nil _).symm, rfl, fun h q _ trace => ⟨trace, trivial⟩⟩
  | succ n ih =>
    rw [txRounds, txWalk]
    cases found : txFetch f base r.host r.ring.index with
    | none =>
      rw [txRound, found]
      exact ⟨[], (append_nil _).symm, rfl, fun h q _ trace => ⟨trace, trivial⟩⟩
    | some fetched =>
      obtain ⟨desc, d⟩ := fetched
      rw [txRound, found]
      obtain ⟨done, appended, walked, lawful⟩ := ih
        { ring := r.ring.advance d.eor
          seg := (txSegment r.seg d).1
          host := writeUint32Le r.host desc (d.flags &&& descTxsta)
          isr := if (txSegment r.seg d).2.2 then r.isr ||| 1 <<< irqTer else r.isr
          txIrq := true
          done := r.done ++ [(d, (txSegment r.seg d).2.1)] }
      refine ⟨(d, (txSegment r.seg d).2.1) :: done, ?_, ?_, fun h q orderly trace => ?_⟩
      · rw [append_assoc] at appended
        exact appended
      · dsimp only
        rw [walked]
        rfl
      · obtain ⟨next, allowed⟩ := trace.segment orderly.1
        obtain ⟨last, rest⟩ := lawful (h.take q d) q orderly.2 next
        rw [TxHistory.past_take] at rest
        exact ⟨last, allowed, rest⟩

theorem txOwned_card (host : HostMem) : (txOwned f base host).card ≤ maxFifoSize := by
  refine (Finset.card_filter_le _ _).trans ?_
  rw [Finset.card_range]

end Doorbell

/-- The descriptors of a ring that a doorbell would go through, and memory afterwards. -/
def TxDevice.walk (dev : TxDevice) (f : PciFunc) (q : TxQueue) (host : HostMem) : List TxDesc × HostMem :=
  if dev.cr &&& crTe = 0 then ([], host) else txWalk f (dev.rings q).base maxFifoSize (dev.rings q) host

/-- A doorbell is over after the descriptors of one turn of the ring. -/
def DoorbellStops (f : PciFunc) (dev : TxDevice) (q : TxQueue) (host : HostMem) : Prop :=
  txRound f (dev.rings q).base (txRounds f (dev.rings q).base maxFifoSize (dev.enter q host)) = none

section
variable (f : PciFunc) (dev : TxDevice) (q : TxQueue) (host : HostMem)

theorem doorbellStops : DoorbellStops f dev q host :=
  txRounds_stop maxFifoSize _ (txOwned_card _)

/-- A doorbell changes its ring's index, the buffer and the interrupts; it goes through the descriptors walked. -/
structure DoorbellEffect (dev : TxDevice) (q : TxQueue) (walked : List TxDesc × HostMem) (rang : TxRang) :
    Prop where
  cr : rang.dev.cr = dev.cr
  rings : ∀ q', q' ≠ q → rang.dev.rings q' = dev.rings q'
  walk : walked = (rang.done.map Prod.fst, rang.host)
  lawful : ∀ h : TxHistory, h.AllOrderly q (rang.done.map Prod.fst) → SegTrace h dev.seg →
    SegTrace (h.takes q (rang.done.map Prod.fst)) rang.dev.seg ∧ RoundsLawful (h.past q) rang.done

theorem rtl8169TxDoorbell_effect :
    DoorbellEffect dev q (dev.walk f q host) (rtl8169TxDoorbell f dev q host) := by
  unfold rtl8169TxDoorbell
  split
  next off => exact ⟨rfl, fun _ _ => rfl, if_pos off, fun h _ trace => ⟨trace, trivial⟩⟩
  next on =>
    have spec := txRounds_spec f (dev.rings q).base maxFifoSize (dev.enter q host)
    obtain ⟨done, appended, walked, lawful⟩ := spec
    dsimp only
    generalize txRounds f (dev.rings q).base maxFifoSize (dev.enter q host) = r at *
    have all : r.done = done := appended
    subst all
    have walk : dev.walk f q host = (r.done.map Prod.fst, r.host) := by
      rw [TxDevice.walk, if_neg on]
      exact walked
    split
    all_goals exact ⟨rfl, fun q' other => update_of_ne other .., walk, fun h => lawful h q⟩

structure TxState where
  dev : TxDevice
  history : TxHistory

def TxState.init : TxState := ⟨rtl8169Init, ⟨fun _ => [], none⟩⟩

/-- A ring starts anew where its address is set, or the device is reset. -/
def TxState.after (s : TxState) (w : TxWrite) : TxHistory :=
  match txReg w.offset with
  | .txda1 | .txda2 => s.history.forget .normal
  | .txha1 | .txha2 => s.history.forget .high
  | .cr => if w.val &&& crRst = 0 then s.history else (s.history.forget .normal).forget .high
  | .tpoll =>
    let polled := txPoll w.f s.dev w.host w.val
    (s.history.takes .high (polled.high.done.map Prod.fst)).takes .normal (polled.normal.done.map Prod.fst)
  | .isr | .other => s.history

def TxState.step (s : TxState) (w : TxWrite) : TxState := ⟨rtl8169PciWrite s.dev w, s.after w⟩

/-- The descriptors a write to the polling register goes through, on the high priority ring and on the other. -/
def TxState.walks (s : TxState) (w : TxWrite) : List TxDesc × List TxDesc :=
  let high := if w.val &&& tpollHpq = 0 then ([], w.host) else s.dev.walk w.f .high w.host
  let normal := if w.val &&& tpollNpq = 0 then ([], high.2) else s.dev.walk w.f .normal high.2
  (high.1, normal.1)

/-- The guest queues the segments of a packet one after the other: a descriptor that does not start a packet comes
after one of its own ring that does not end it, packets in one descriptor of the other ring apart. -/
def TxState.Orderly (s : TxState) (w : TxWrite) : Prop :=
  txReg w.offset = .tpoll →
    s.history.AllOrderly .high (s.walks w).1 ∧
      (s.history.takes .high (s.walks w).1).AllOrderly .normal (s.walks w).2

structure TxState.PollLawful (s : TxState) (w : TxWrite) : Prop where
  high : RoundsLawful (s.history.past .high) (txPoll w.f s.dev w.host w.val).high.done
  normal : RoundsLawful (s.history.past .normal) (txPoll w.f s.dev w.host w.val).normal.done
  highStops : DoorbellStops w.f s.dev .high w.host
  normalStops : DoorbellStops w.f (txPoll w.f s.dev w.host w.val).high.dev .normal
    (txPoll w.f s.dev w.host w.val).high.host

def TxState.Lawful (s : TxState) (w : TxWrite) : Prop := txReg w.offset = .tpoll → s.PollLawful w

theorem doorbellEffect_if (idle : Prop)
    [Decidable idle] :
    DoorbellEffect dev q (if idle then ([], host) else dev.walk f q host)
      (if idle then ⟨dev, host, []⟩ else rtl8169TxDoorbell f dev q host) := by
  split
  · exact ⟨rfl, fun _ _ => rfl, rfl, fun h _ trace => ⟨trace, trivial⟩⟩
  · exact rtl8169TxDoorbell_effect f dev q host

end

theorem past_takes_of_ne (h : TxHistory) {q q' : TxQueue} (other : q' ≠ q) (ds : List TxDesc) :
    (h.takes q ds).past q' = h.past q' := by
  induction ds generalizing h with
  | nil => rfl
  | cons d ds ih => exact (ih (h.take q d)).trans (h.past_take_of_ne other d)

theorem SegTrace.forget (trace : SegTrace h seg) (q : TxQueue) :
    SegTrace (h.forget q) seg := by
  rcases trace with broken | ⟨small, holds⟩
  · exact .inl broken
  · refine .inr ⟨small, fun q' pending => ?_⟩
    simp only [TxHistory.forget] at pending
    split at pending
    · cases pending
    next others =>
      have other : q' ≠ q := by
        rintro rfl
        exact others pending
      have kept : (h.forget q).past q' = h.past q' := update_of_ne other ..
      rw [kept]
      exact holds q' pending

theorem DoorbellEffect.walk_other {dev : TxDevice} {q q' : TxQueue} {walked : List TxDesc × HostMem}
    {rang : TxRang} (effect : DoorbellEffect dev q walked rang) (other : q' ≠ q) (f : PciFunc) (host : HostMem) :
    rang.dev.walk f q' host = dev.walk f q' host := by
  rw [TxDevice.walk, TxDevice.walk, effect.cr, effect.rings q' other]

theorem SegTrace.poll {s : TxState} (trace : SegTrace s.history s.dev.seg) (w : TxWrite)
    (highOrderly : s.history.AllOrderly .high (s.walks w).1)
    (normalOrderly : (s.history.takes .high (s.walks w).1).AllOrderly .normal (s.walks w).2) :
    SegTrace ((s.history.takes .high (s.walks w).1).takes .normal (s.walks w).2)
      (txPoll w.f s.dev w.host w.val).normal.dev.seg ∧
    (s.walks w).1 = (txPoll w.f s.dev w.host w.val).high.done.map Prod.fst ∧
    (s.walks w).2 = (txPoll w.f s.dev w.host w.val).normal.done.map Prod.fst ∧ s.PollLawful w := by
  have first := doorbellEffect_if w.f s.dev .high w.host (w.val &&& tpollHpq = 0)
  have second := doorbellEffect_if w.f (txPoll w.f s.dev w.host w.val).high.dev .normal
    (txPoll w.f s.dev w.host w.val).high.host (w.val &&& tpollNpq = 0)
  change DoorbellEffect _ _ _ (txPoll w.f s.dev w.host w.val).high at first
  change DoorbellEffect _ _ _ (txPoll w.f s.dev w.host w.val).normal at second
  have highWalk : (s.walks w).1 = (txPoll w.f s.dev w.host w.val).high.done.map Prod.fst := by
    rw [TxState.walks, first.walk]
  have normalWalk : (s.walks w).2 = (txPoll w.f s.dev w.host w.val).normal.done.map Prod.fst := by
    have walk := second.walk
    rw [first.walk_other (by decide)] at walk
    simp only [TxState.walks, first.walk, walk]
  rw [highWalk] at highOrderly normalOrderly ⊢
  rw [normalWalk] at normalOrderly ⊢
  obtain ⟨kept, highLawful⟩ := first.lawful _ highOrderly trace
  obtain ⟨last, normalLawful⟩ := second.lawful _ normalOrderly kept
  rw [past_takes_of_ne _ (by decide)] at normalLawful
  exact ⟨last, rfl, rfl, ⟨highLawful, normalLawful, doorbellStops .., doorbellStops ..⟩⟩

theorem SegTrace.step {s : TxState} (trace : SegTrace s.history s.dev.seg) {w : TxWrite} (orderly : s.Orderly w) :
    SegTrace (s.step w).history (s.step w).dev.seg := by
  unfold TxState.step TxState.after rtl8169PciWrite
  cases reg : txReg w.offset with
  | txda1 | txda2 => exact trace.forget .normal
  | txha1 | txha2 => exact trace.forget .high
  | cr =>
    dsimp only
    split
    · exact trace
    · exact (trace.forget .normal).forget .high
  | tpoll =>
    obtain ⟨highOrderly, normalOrderly⟩ := orderly reg
    obtain ⟨kept, highWalk, normalWalk, _⟩ := trace.poll w highOrderly normalOrderly
    rw [highWalk, normalWalk] at kept
    dsimp only
    split
    · exact kept
    · exact kept
  | isr | other => exact trace

/-- Where the guest is orderly, every frame is one packet of one ring; doorbells are over after one turn. -/
theorem tx_lawful_run {writes : List TxWrite} (orderly : AllSteps TxState.step TxState.Orderly .init writes) :
    AllSteps TxState.step TxState.Lawful .init writes := by
  have keeps : ∀ (s : TxState) w, SegTrace s.history s.dev.seg → s.Orderly w →
      SegTrace (s.step w).history (s.step w).dev.seg := fun s w trace ok => trace.step ok
  refine AllSteps.entails keeps ?_ ?_ orderly
  · intro s w trace ok polled
    obtain ⟨highOrderly, normalOrderly⟩ := ok polled
    exact (trace.poll w highOrderly normalOrderly).2.2.2
  · exact .inr ⟨by decide, nofun⟩

instance (h : TxHistory) (q : TxQueue) (ds : List TxDesc) : Decidable (h.AllOrderly q ds) :=
  have (h : TxHistory) (d : TxDesc) : Decidable (h.Orderly q d) :=
    inferInstanceAs (Decidable (d.fs = true ∨ h.pending = some q))
  inferInstanceAs (Decidable (AllSteps _ _ h ds))

instance (s : TxState) (w : TxWrite) : Decidable (s.Orderly w) :=
  inferInstanceAs (Decidable (txReg w.offset = .tpoll → _))

def smallFunc : PciFunc := ⟨⟨⟨0, 0x1000, 0x20000, by decide, by decide⟩, fun _ => 0, []⟩, 0x4⟩

def cells (held : List (Addr × Byte)) : HostMem := fun p => (held.lookup (p - 0x20000)).getD 0

/-- The rings are set up at `0x100` and `0x200`, the transmitter is enabled and `val` is written to the polling
register. -/
def pollOnce (host : HostMem) (val : BitVec 32) : List TxWrite :=
  [⟨smallFunc, host, 0x20, 0x100⟩, ⟨smallFunc, host, 0x28, 0x200⟩, ⟨smallFunc, host, 0x37, 0x4⟩,
    ⟨smallFunc, host, 0x38, val⟩]

def twoSegments : HostMem :=
  cells [(0x100, 1), (0x103, 0xA0), (0x109, 3), (0x110, 1), (0x113, 0x90), (0x118, 1), (0x119, 3),
    (0x300, 0x61), (0x301, 0x62)]

theorem tx_lawful_run_segments :
    AllSteps TxState.step TxState.Orderly .init (pollOnce twoSegments 0x40) ∧
    AllSteps TxState.step TxState.Lawful .init (pollOnce twoSegments 0x40) ∧
    (txPoll smallFunc (final TxState.step .init ((pollOnce twoSegments 0x40).take 3)).dev twoSegments
      0x40).normal.done.map Prod.snd = [none, some [0x61, 0x62]] := by
  have orderly : AllSteps TxState.step TxState.Orderly .init (pollOnce twoSegments 0x40) := by decide +kernel
  exact ⟨orderly, tx_lawful_run orderly, by decide +kernel⟩

/-- The high priority ring holds the first segment of a packet, the normal ring a last segment. -/
def halvesApart : HostMem :=
  cells [(0x200, 1), (0x203, 0xA0), (0x209, 3), (0x100, 1), (0x103, 0x90), (0x108, 1), (0x109, 3),
    (0x300, 0x61), (0x301, 0x62)]

theorem not_isFrame {history : List TxDesc} (continues : ∀ d ∈ history, d.fs = false) :
    ¬ IsFrame history frame := by
  rintro ⟨before, group, rfl, ⟨⟨d, rest, rfl, starts, _⟩, _⟩, _⟩
  rw [continues d (mem_append_right _ mem_cons_self)] at starts
  cases starts

theorem not_roundsLawful {past : List TxDesc} {done : List (TxDesc × Option (List Byte))}
    (start : past = []) (sent : done.map (fun round => (round.1.fs, round.2)) = [(false, some frame)]) :
    ¬ RoundsLawful past done := by
  intro lawful
  obtain ⟨⟨d, out⟩, rfl, eq⟩ := map_eq_singleton_iff.mp sent
  obtain ⟨continues, rfl⟩ := Prod.mk.inj eq
  subst start
  refine not_isFrame (fun e member => ?_) (lawful.1.whole frame rfl)
  rw [mem_singleton.mp member]
  exact continues

/-- A frame made of the two rings' segments. -/
theorem tx_mixes_rings :
    ¬ AllSteps TxState.step TxState.Lawful .init (pollOnce halvesApart 0xC0) ∧
    (txPoll smallFunc (final TxState.step .init ((pollOnce halvesApart 0xC0).take 3)).dev halvesApart
      0xC0).normal.done.map (fun round => (round.1.fs, round.2)) = [(false, some [0x61, 0x62])] := by
  have sent : (txPoll smallFunc (final TxState.step .init ((pollOnce halvesApart 0xC0).take 3)).dev
      halvesApart 0xC0).normal.done.map (fun round => (round.1.fs, round.2)) = [(false, some [0x61, 0x62])] :=
        by decide +kernel
  refine ⟨fun lawful => ?_, sent⟩
  have polled := lawful.2.2.2.1 rfl
  exact not_roundsLawful rfl sent polled.normal

end Rvvm.Rtl8169
