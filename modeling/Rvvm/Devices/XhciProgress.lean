import Rvvm.Devices.XhciRing

/-! What the guest has laid out on a transfer ring, read as the controller should read it, against what a doorbell
runs. -/
namespace Rvvm.XhciRing
open List Runs
open Function (update)

/-- What stands on a ring from a cursor on: the TRBs of a descriptor, where it ends, whether all of
it is owned by the controller, how many TRBs were read and whether every segment linked to begins at
a multiple of 64. -/
structure Seen where
  trbs : List (Addr × Trb)
  next : Cursor
  complete : Bool
  read : Nat
  aligned : Bool

/-- The segment a link leads to: the low four bits of its pointer are reserved. -/
def Trb.segment (t : Trb) : Addr := t.ptr &&& ~~~ 0xF

def Cursor.follow (cur : Cursor) (link : Trb) : Cursor :=
  ⟨link.segment, if link.toggles then !cur.dcs else cur.dcs⟩

inductive Reads (g : Guest) : Cursor → Seen → Prop
  | foreign {cur : Cursor} (none : g.owned cur = none) : Reads g cur ⟨[], cur, false, 1, true⟩
  | link {cur : Cursor} {trb : Trb} {seen : Seen} (here : g.owned cur = some trb) (type : trb.type = typeLink)
      (rest : Reads g (cur.follow trb) seen) :
      Reads g cur
        { seen with
          read := seen.read + 1
          aligned := seen.aligned && decide (trb.segment &&& ~~~ 0x3F = trb.segment) }
  | more {cur : Cursor} {trb : Trb} {seen : Seen} (here : g.owned cur = some trb) (type : trb.type ≠ typeLink)
      (chained : trb.chained = true) (rest : Reads g cur.advance seen) :
      Reads g cur { seen with trbs := (cur.deq, trb) :: seen.trbs, read := seen.read + 1 }
  | last {cur : Cursor} {trb : Trb} (here : g.owned cur = some trb) (type : trb.type ≠ typeLink)
      (final : trb.chained = false) : Reads g cur ⟨[(cur.deq, trb)], cur.advance, true, 1, true⟩

/-- The descriptors on a ring, up to the first place that is not owned by the controller. -/
inductive Ring (g : Guest) : Cursor → List Seen → Seen → Prop
  | stop {cur : Cursor} {stop : Seen} (reads : Reads g cur stop) (foreign : stop.complete = false) :
      Ring g cur [] stop
  | td {cur : Cursor} {seen stop : Seen} {rest : List Seen} (reads : Reads g cur seen)
      (owned : seen.complete = true) (more : Ring g seen.next rest stop) : Ring g cur (seen :: rest) stop

theorem segment_aligned {t : Trb} (aligned : t.segment &&& ~~~ 0x3F = t.segment) :
    t.ptr &&& ~~~ 0x3F = t.segment := by
  rw [← aligned, Trb.segment, BitVec.and_assoc]
  rfl

/-- Where every link is aligned and 32 TRBs hold the descriptor, it is collected if 64 TRBs reach its end. -/
theorem Reads.collects {g : Guest} {cur : Cursor} {seen : Seen} (reads : Reads g cur seen) (guard : Nat)
    (trbs : List (Addr × Trb)) (aligned : seen.aligned = true)
    (few : seen.complete = true → trbs.length + seen.trbs.length ≤ 32) :
    collectLoop g guard cur trbs
      = if seen.complete = true ∧ seen.read ≤ guard then some ⟨trbs ++ seen.trbs, seen.next⟩ else none := by
  induction reads generalizing guard trbs with
  | foreign none =>
    rw [collectLoop_foreign _ _ none]
    simp
  | @link cur trb seen here type rest ih =>
    simp only [Bool.and_eq_true, decide_eq_true_eq] at aligned
    cases guard with
    | zero => simp [collectLoop]
    | succ guard =>
      rw [collectLoop_link _ _ here type, segment_aligned aligned.2]
      have later := ih guard trbs aligned.1 few
      simp only [Nat.add_le_add_iff_right]
      exact later
  | @more cur trb seen here type chained rest ih =>
    cases guard with
    | zero => simp [collectLoop]
    | succ guard =>
      rw [collectLoop_more _ _ here type chained]
      simp only [length_cons] at few
      have kept (owned : seen.complete = true) : keep trbs (cur.deq, trb) = trbs ++ [(cur.deq, trb)] := by
        have := few owned
        exact if_pos (by omega)
      have later := ih guard (keep trbs (cur.deq, trb)) aligned (by
        intro owned
        have := few owned
        rw [kept owned, length_append, length_singleton]
        omega)
      rw [later]
      cases owned : seen.complete with
      | false => simp
      | true => simp [kept owned]
  | last here type final =>
    cases guard with
    | zero => simp [collectLoop]
    | succ guard =>
      rw [collectLoop_last _ _ here type final]
      have room : trbs.length < 32 := few rfl
      simp [keep, room]

/-! What a doorbell runs. -/

/-- The descriptors are of a size and shape that is collected, and the device answers them promptly. -/
def fits (dci : Nat) (rets : Nat → Nat → Int) : Nat → List Seen → Bool
  | _, [] => true
  | k, seen :: rest =>
    seen.aligned && decide (seen.read ≤ 64) && decide (seen.trbs.length ≤ 32)
      && (dci == 1 || prompt (rets k) 0 seen.trbs) && fits dci rets (k + 1) rest

def Walk.waits (walk : Walk) : Bool := walk.ran.any fun run => run.2.pending.isSome

/-- The transfer the walk ended on, if that is answered later. -/
def Walk.pending (walk : Walk) : Option Pending := walk.ran.getLast?.bind fun run => run.2.pending

/-- The walk returns, what it ran is what is laid out, and each TRB was asked for. -/
structure Walk.Ran (g : Guest) (dci : Nat) (walk : Walk) (laid : List Seen) : Prop where
  returned : walk.returned = true
  inOrder : walk.ran.map (fun run => run.1.trbs) <+: laid.map Seen.trbs
  all : walk.waits = false → walk.ran.map (fun run => run.1.trbs) = laid.map Seen.trbs
  whole : dci ≠ 1 → ∀ run ∈ walk.ran, run.2.calls = asked g run.1.trbs

theorem ringLoop_ran {g : Guest} {dci : Nat} {rets : Nat → Nat → Int} {cur : Cursor} {laid : List Seen}
    {stop : Seen} (ring : Ring g cur laid stop) (aligned : stop.aligned = true) (k rounds : Nat)
    (fit : fits dci rets k laid = true) (enough : laid.length < rounds) :
    (ringLoop g dci rets rounds k cur).Ran g dci laid := by
  induction ring generalizing k rounds with
  | @stop cur stop reads foreign =>
    obtain ⟨rounds, rfl⟩ := Nat.exists_eq_succ_of_ne_zero (Nat.ne_of_gt enough)
    have none : xhciCollectTd g cur = none := by
      rw [xhciCollectTd, reads.collects 64 [] aligned (by simp [foreign])]
      simp [foreign]
    rw [ringLoop, none]
    exact ⟨rfl, prefix_rfl, fun _ => rfl, by simp⟩
  | @td cur seen stop rest reads owned more ih =>
    obtain ⟨rounds, rfl⟩ := Nat.exists_eq_succ_of_ne_zero (Nat.ne_of_gt (Nat.zero_lt_of_lt enough))
    simp only [fits, Bool.and_eq_true, Bool.or_eq_true, decide_eq_true_eq, beq_iff_eq] at fit
    obtain ⟨⟨⟨⟨straight, short⟩, few⟩, answered⟩, later⟩ := fit
    have collected : xhciCollectTd g cur = some ⟨seen.trbs, seen.next⟩ := by
      rw [xhciCollectTd, reads.collects 64 [] straight (fun _ => by simpa using few)]
      simp [owned, short]
    have whole : dci ≠ 1 → (xhciRunTd g dci (rets k) ⟨seen.trbs, seen.next⟩).calls = asked g seen.trbs := by
      intro other
      rw [xhciRunTd, if_neg other]
      exact normalLoop_prompt g (rets k) _ 0 _ seen.trbs (answered.resolve_left other)
    rw [ringLoop, collected]
    dsimp only
    by_cases pending : (xhciRunTd g dci (rets k) ⟨seen.trbs, seen.next⟩).pending.isSome = true
    · rw [if_pos pending]
      refine ⟨rfl, ?_, ?_, ?_⟩
      · simp [prefix_cons_iff]
      · simp [Walk.waits, pending]
      · simpa using whole
    · rw [if_neg pending]
      have tail := ih aligned (k + 1) rounds later (Nat.lt_of_succ_lt_succ enough)
      refine ⟨tail.returned, ?_, ?_, ?_⟩
      · exact (prefix_cons_inj _).mpr tail.inOrder
      · intro settled
        simp only [Walk.waits, any_cons, Bool.or_eq_false_iff] at settled
        simpa using tail.all settled.2
      · intro other run member
        rcases mem_cons.mp member with rfl | after
        · exact whole other
        · exact tail.whole other run after

/-! The controller over doorbells, completions and whatever the guest writes to memory. -/

/-- `held` says that `xhci->lock` was left locked. -/
structure Xhci where
  guest : Guest
  slots : Nat → Slot
  held : Bool

/-- A doorbell is given a number of rounds to return in. -/
inductive Bell
  | memory (g : Guest)
  | doorbell (rets : Nat → Nat → Int) (rounds id : Nat) (val : BitVec 32)
  | xferDone (id dci : Nat)

namespace Xhci
variable (x : Xhci)

/-- A doorbell that gets to a lock left locked waits for good. -/
def doorbell (rets : Nat → Nat → Int) (rounds id : Nat) (val : BitVec 32) : Walk :=
  if x.held && addressed id (doorbellDci val) then ⟨false, ((x.slots id).eps (doorbellDci val)).cursor, []⟩
  else xhciDoorbellWrite x.guest x.slots rets rounds id val

def endpoint (id dci : Nat) : Endpoint := (x.slots id).eps dci

def setEndpoint (id dci : Nat) (ep : Endpoint) : Xhci :=
  { x with slots := update x.slots id { x.slots id with eps := update (x.slots id).eps dci ep } }

def step : Bell → Xhci
  | .memory g => { x with guest := g }
  | .doorbell rets rounds id val =>
    let walk := x.doorbell rets rounds id val
    let ep := x.endpoint id (doorbellDci val)
    { x.setEndpoint id (doorbellDci val) { ep with cursor := walk.cursor, pending := walk.pending <|> ep.pending } with
      held := x.held || keepsLock x.slots id (doorbellDci val) }
  -- The event is posted; the ring is not looked at again.
  | .xferDone id dci =>
    if x.held then x else x.setEndpoint id dci { x.endpoint id dci with pending := none }

/-- No descriptor owned by the controller is left where the endpoint stands. -/
def Drained (id dci : Nat) : Prop := ∀ seen, Reads x.guest (x.endpoint id dci).cursor seen → seen.complete = false

/-- A doorbell returns, having run what is laid out if the endpoint has nothing outstanding; a completion gets
through, and leaves nothing behind. -/
def Progress : Bell → Prop
  | .memory _ => True
  | .doorbell rets rounds id val =>
    (x.doorbell rets rounds id val).returned = true ∧
      (served x.slots id (doorbellDci val) = true →
        ∃ laid stop, Ring x.guest (x.endpoint id (doorbellDci val)).cursor laid stop ∧
          (x.doorbell rets rounds id val).Ran x.guest (doorbellDci val) laid)
  | .xferDone id dci =>
    x.held = false ∧ ((x.endpoint id dci).pending.isSome = true → (x.step (.xferDone id dci)).Drained id dci)

/-- A doorbell is rung for an enabled endpoint of a slot in use with no transfer outstanding, its ring ends and
the descriptors fit; none follows an asynchronous one when that completes. -/
def Fits : Bell → Prop
  | .memory _ => True
  | .doorbell rets rounds id val =>
    keepsLock x.slots id (doorbellDci val) = false ∧
      (served x.slots id (doorbellDci val) = true →
        ∃ laid stop, Ring x.guest (x.endpoint id (doorbellDci val)).cursor laid stop ∧ stop.aligned = true ∧
          fits (doorbellDci val) rets 0 laid = true ∧ laid.length < rounds)
  | .xferDone id dci => x.Drained id dci

end Xhci

theorem drained_of_foreign {x : Xhci} {id dci : Nat} (none : x.guest.owned (x.endpoint id dci).cursor = none) :
    x.Drained id dci := by
  intro seen reads
  cases reads with
  | foreign => rfl
  | link here | more here | last here => exact nomatch none.symm.trans here

section Steps
variable {x : Xhci} (free : x.held = false)
include free

theorem step_free {e : Bell} (fit : x.Fits e) : (x.step e).held = false := by
  cases e with
  | memory g => exact free
  | doorbell rets rounds id val => exact Bool.or_eq_false_iff.mpr ⟨free, fit.1⟩
  | xferDone id dci =>
    rw [Xhci.step, if_neg (Bool.eq_false_iff.mp free)]
    exact free

theorem doorbell_free (rets : Nat → Nat → Int) (rounds id : Nat) (val : BitVec 32) :
    x.doorbell rets rounds id val = xhciDoorbellWrite x.guest x.slots rets rounds id val := by
  rw [Xhci.doorbell, free, Bool.false_and]
  rfl

theorem progress_of_fits {e : Bell} (fit : x.Fits e) : x.Progress e := by
  cases e with
  | memory g => trivial
  | doorbell rets rounds id val =>
    dsimp only [Xhci.Progress]
    rw [doorbell_free free]
    unfold xhciDoorbellWrite xhciRunTransferRing
    by_cases run : served x.slots id (doorbellDci val) = true
    · obtain ⟨laid, stop, ring, aligned, fit, enough⟩ := fit.2 run
      have ran := ringLoop_ran ring aligned 0 rounds fit enough
      rw [if_pos run]
      exact ⟨ran.returned, fun _ => ⟨laid, stop, ring, ran⟩⟩
    · rw [if_neg run]
      exact ⟨rfl, fun is => absurd is run⟩
  | xferDone id dci =>
    refine ⟨free, fun _ => ?_⟩
    rw [Xhci.step, if_neg (Bool.eq_false_iff.mp free)]
    intro seen reads
    refine fit seen ?_
    simpa [Xhci.setEndpoint, Xhci.endpoint] using reads

end Steps

/-- One descriptor at `0x1000`; a link that does not toggle leads back to it from `0x1010` if the
ring is `closed`. -/
def loopGuest (closed : Bool) : Guest :=
  { trbAt := fun a =>
      if a = 0x1000 then some ⟨0x8000, 8, 0x401⟩
      else if a = 0x1010 then some ⟨0x1000, 0, if closed then 0x1801 else 0⟩
      else none
    reach := fun _ _ => true }

/-- Two chained TRBs, with a link from `0x1010` to the segment at `0x2000` between them, and one more behind them
if the guest has `added` it. -/
def chainGuest (added : Bool) : Guest :=
  { trbAt := fun a =>
      if a = 0x1000 then some ⟨0x8000, 8, 0x411⟩
      else if a = 0x1010 then some ⟨0x2000, 0, 0x1801⟩
      else if a = 0x2000 then some ⟨0x8008, 8, 0x401⟩
      else if a = 0x2010 then some ⟨0x8010, 8, if added then 0x401 else 0⟩
      else none
    reach := fun _ _ => true }

def chainXhci : Xhci := ⟨chainGuest false, readySlots, false⟩

/-- The second TRB is answered later, with nothing behind it; the guest goes on once it is complete. -/
def chainRun : List Bell :=
  [.doorbell (fun _ i => if i = 0 then 8 else rvvmUsbXferAsync) 2 1 3, .xferDone 1 3, .memory (chainGuest true),
    .doorbell (fun _ _ => 8) 2 1 3]

theorem closed_ring_returns_never (rounds k : Nat) (cur : Cursor)
    (on : cur = ⟨0x1000, true⟩ ∨ cur = ⟨0x1010, true⟩) :
    (ringLoop (loopGuest true) 3 (fun _ _ => 8) rounds k cur).returned = false := by
  induction rounds generalizing k cur with
  | zero => rfl
  | succ rounds ih =>
    have collected : xhciCollectTd (loopGuest true) cur
        = some ⟨[(0x1000, ⟨0x8000, 8, 0x401⟩)], ⟨0x1010, true⟩⟩ := by
      rcases on with rfl | rfl <;> rfl
    rw [ringLoop, collected]
    exact ih (k + 1) _ (Or.inr rfl)

/-- Two chained TRBs, with a link from `0x1010` to a segment at `0x2010` between them. -/
def offsetGuest : Guest :=
  { trbAt := fun a =>
      if a = 0x1000 then some ⟨0x8000, 8, 0x411⟩
      else if a = 0x1010 then some ⟨0x2010, 0, 0x1801⟩
      else if a = 0x2010 then some ⟨0x8008, 8, 0x401⟩
      else none
    reach := fun _ _ => true }

/-- A doorbell rung while a transfer is outstanding leaves the lock locked. -/
def heldXhci : Xhci :=
  final Xhci.step ⟨loopGuest false, readySlots, false⟩
    [.doorbell (fun _ _ => rvvmUsbXferAsync) 2 1 3, .doorbell (fun _ _ => 8) 2 1 3]

end Rvvm.XhciRing
