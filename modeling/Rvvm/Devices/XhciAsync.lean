import Rvvm.Devices.XhciRing

/-! Asynchronous transfers of the xHCI controller: the hart notes the transfer that is outstanding
field by field, after the device has taken it, while a device thread may report its completion at
any point. -/
namespace Rvvm.XhciRing
open List Runs

/-- The fields of `pending`. -/
structure Record where
  active : Bool
  trbPtr : Addr
  interrupter : Nat
  length : Nat

inductive Write
  | active
  | trbPtr (addr : Addr)
  | interrupter (n : Nat)
  | length (n : Nat)

def Record.put (r : Record) : Write → Record
  | .active => { r with active := true }
  | .trbPtr addr => { r with trbPtr := addr }
  | .interrupter n => { r with interrupter := n }
  | .length n => { r with length := n }

/-- What the hart writes to the record, in its order. -/
def Pending.writes (p : Pending) : List Write :=
  [.active, .trbPtr p.trbPtr, .interrupter p.interrupter, .length p.length]

def lens (trbs : List (Addr × Trb)) : Nat :=
  ((trbs.filter fun e => e.2.type ≠ typeEventData).map fun e => e.2.len).sum

/-- A transfer that was reported: its length, the count reported and the events it produced. -/
structure Finished where
  total : Nat
  count : Int
  events : List Posted

/-- The TRBs of the descriptor a walk goes over, those that are not kept included. -/
def walked (g : Guest) : Nat → Cursor → List (Addr × Trb)
  | 0, _ => []
  | guard + 1, cur =>
    match g.owned cur with
    | none => []
    | some trb =>
      if trb.type = typeLink then
        walked g guard ⟨trb.ptr &&& ~~~ 0x3F, if trb.toggles then !cur.dcs else cur.dcs⟩
      else (cur.deq, trb) :: if trb.chained then walked g guard cur.advance else []

/-- An endpoint: what the hart has yet to write, the length of the transfer that the device has taken and not yet
reported, and those it has reported. `held` says that `xhci->lock` was left locked. -/
structure Async where
  record : Record
  writes : List Write
  current : Option Nat
  finished : List Finished
  held : Bool

/-- A report finds an event `ring` in place, or none. A `stray` doorbell is one for another endpoint that leaves the
lock locked. -/
inductive Event
  | run (g : Guest) (cur : Cursor) (rets : Nat → Int)
  | write
  | done (ret : Int) (ring : Bool)
  | stray

/-- A round of `xhci_run_transfer_ring` up to the answer of the device. The hart goes round again only once it has
written the record; it waits for a lock that was left locked, and leaves it so where a transfer is outstanding. -/
def Async.run (s : Async) (g : Guest) (cur : Cursor) (rets : Nat → Int) : Async :=
  if !s.writes.isEmpty || s.held then s
  else if s.record.active then { s with held := true }
  else
    match xhciCollectTd g cur with
    | none => s
    | some td =>
      match (xhciRunNormalTd g rets td).pending with
      | none => s
      | some p => { s with writes := p.writes, current := some (lens (walked g 64 cur)) }

def Async.write (s : Async) : Async :=
  match s.writes with
  | [] => s
  | w :: writes => { s with record := s.record.put w, writes := writes }

/-- The only interrupter has every event, or none has it. -/
def xhciPostEventLocked (ring : Bool) (event : Posted) : List Posted := if ring then [event] else []

/-- A device reports each transfer once; without a record nothing is posted, and a lock that was left locked is
waited for. -/
def xhciCbXferDone (s : Async) (ret : Int) (ring : Bool) : Async :=
  match s.current with
  | none => s
  | some total =>
    if s.held then { s with current := none, finished := ⟨total, ret, []⟩ :: s.finished }
    else
      let events :=
        if s.record.active then
          xhciPostEventLocked ring (transferEvent s.record.trbPtr ret.toNat s.record.length s.record.interrupter)
        else []
      { s with
        record := { s.record with active := false }
        current := none
        finished := ⟨total, ret, events⟩ :: s.finished }

def Async.step (s : Async) : Event → Async
  | .run g cur rets => s.run g cur rets
  | .write => s.write
  | .done ret ring => xhciCbXferDone s ret ring
  | .stray => { s with held := true }

/-- One event, with what was left over, as a success exactly when nothing was. -/
def Finished.Answered (t : Finished) : Prop :=
  ∃ e, t.events = [e] ∧ e.residue = t.total - t.count.toNat ∧ (e.code = compSuccess ↔ e.residue = 0)

structure Async.Lawful (s : Async) : Prop where
  answered : ∀ t ∈ s.finished, t.Answered
  released : s.current = none → s.record.active = false

/-- A TRB that is answered later is as long as all that follow it. -/
def balanced (rets : Nat → Int) : Nat → List (Addr × Trb) → Bool
  | _, [] => true
  | i, (_, trb) :: rest =>
    (trb.type == typeEventData || rets i != rvvmUsbXferAsync || trb.len == lens rest) &&
      balanced rets (i + 1) rest

/-- The ring is run with no transfer outstanding, of a descriptor that is kept as a whole and whose length the
record has; a report comes after the record is written, and finds an event ring. -/
def Async.settled (s : Async) : Event → Bool
  | .run g cur rets =>
    !(s.writes.isEmpty && s.record.active) &&
      (xhciCollectTd g cur).all fun td => decide ((walked g 64 cur).length ≤ 32) && balanced rets 0 td.trbs
  | .write => true
  | .done _ ring => s.writes.isEmpty && ring
  | .stray => false

theorem lens_cons (addr : Addr) (trb : Trb) (rest : List (Addr × Trb)) :
    lens ((addr, trb) :: rest) = (if trb.type = typeEventData then 0 else trb.len) + lens rest := by
  by_cases event : trb.type = typeEventData <;> simp [lens, event]

theorem lens_le (trbs : List (Addr × Trb)) : lens trbs ≤ trbs.length * 0x1FFFF := by
  induction trbs with
  | nil => simp [lens]
  | cons e rest ih =>
    obtain ⟨addr, trb⟩ := e
    have masked : trb.len ≤ 0x1FFFF := by
      exact Nat.and_le_right
    rw [lens_cons, length_cons]
    split_ifs <;> omega

/-- A descriptor of at most 32 TRBs is kept as a whole. -/
theorem collectLoop_walked {g : Guest} (guard : Nat) (cur : Cursor) {trbs : List (Addr × Trb)} {td : Td}
    (collected : collectLoop g guard cur trbs = some td) (few : trbs.length + (walked g guard cur).length ≤ 32) :
    td.trbs = trbs ++ walked g guard cur := by
  induction guard generalizing cur trbs with
  | zero => cases collected
  | succ guard ih =>
    unfold walked at few ⊢
    cases here : g.owned cur with
    | none => simp [collectLoop_foreign _ _ here] at collected
    | some trb =>
      simp only [here] at few ⊢
      by_cases link : trb.type = typeLink
      · rw [collectLoop_link _ _ here link] at collected
        rw [if_pos link] at few ⊢
        exact ih _ collected few
      · rw [if_neg link, length_cons] at few
        rw [if_neg link]
        have kept : keep trbs (cur.deq, trb) = trbs ++ [(cur.deq, trb)] := if_pos (by omega)
        cases chained : trb.chained with
        | false =>
          rw [collectLoop_last _ _ here link chained, kept] at collected
          rw [← Option.some.inj collected]
          rfl
        | true =>
          rw [collectLoop_more _ _ here link chained, kept] at collected
          rw [chained, if_pos rfl] at few
          rw [if_pos rfl, ih _ collected (by rw [length_append, length_singleton]; omega), append_assoc]
          rfl

theorem normalLoop_pending (g : Guest) (rets : Nat → Int) (last : Addr) (i : Nat) (t : Tally)
    (trbs : List (Addr × Trb)) {p : Pending} (even : balanced rets i trbs = true)
    (pending : (normalLoop g rets last i t trbs).pending = some p) : p.length = t.total + lens trbs := by
  induction trbs generalizing i t with
  | nil => simp [normalLoop] at pending
  | cons e rest ih =>
    obtain ⟨addr, trb⟩ := e
    rw [lens_cons]
    simp only [balanced, Bool.and_eq_true, Bool.or_eq_true, beq_iff_eq, bne_iff_ne] at even
    obtain ⟨here, later⟩ := even
    by_cases event : trb.type = typeEventData
    · obtain ⟨t', total, loop⟩ := normalLoop_event g event
      rw [loop] at pending
      rw [if_pos event, ih _ _ later pending, total, Nat.zero_add]
    · rw [if_neg event]
      rcases answer_cases (rets i) with async | ⟨now, stall⟩ | fine
      · rw [normalLoop_async g event async] at pending
        rw [← Option.some.inj pending]
        dsimp only
        omega
      · rw [normalLoop_stall g event now stall] at pending
        cases pending
      · obtain ⟨t', total, loop⟩ := normalLoop_next g event fine
        rw [loop] at pending
        rw [ih _ _ later pending, total, Nat.add_assoc]

/-- The record as the hart leaves it belongs to the transfer that is outstanding. -/
structure Async.Sound (s : Async) : Prop where
  answered : ∀ t ∈ s.finished, t.Answered
  noted : ∀ total ∈ s.current,
    (s.writes.foldl Record.put s.record).active = true ∧ (s.writes.foldl Record.put s.record).length = total ∧
      total < 2 ^ 24
  released : s.current = none → s.writes = [] ∧ s.record.active = false
  free : s.held = false

theorem transferEvent_answered {record : Record} {total : Nat} (ret : Int) (small : total < 2 ^ 24)
    (length : record.length = total) :
    Finished.Answered ⟨total, ret, [transferEvent record.trbPtr ret.toNat record.length record.interrupter]⟩ := by
  have residue : (total - ret.toNat) % 2 ^ 24 = total - ret.toNat := Nat.mod_eq_of_lt (by omega)
  refine ⟨_, rfl, ?_, ?_⟩
  · rw [length]
    exact residue
  · simp only [transferEvent, length, residue]
    by_cases short : ret.toNat < total
    · simp only [short, if_true, compShortPkt, compSuccess]
      omega
    · simp only [short, if_false, true_iff]
      omega

variable {s : Async}

theorem sound_run (sound : s.Sound) (g : Guest) (cur : Cursor) (rets : Nat → Int)
    (even : s.settled (.run g cur rets) = true) : (s.run g cur rets).Sound := by
  simp only [Async.settled, Bool.and_eq_true, Bool.not_eq_true'] at even
  obtain ⟨idle, even⟩ := even
  unfold Async.run
  by_cases busy : s.writes.isEmpty = true
  · rw [busy, Bool.true_and] at idle
    rw [busy, sound.free, idle, if_neg (by decide), if_neg (by decide)]
    cases collected : xhciCollectTd g cur with
    | none => exact sound
    | some td =>
      dsimp only
      cases pending : (xhciRunNormalTd g rets td).pending with
      | none => exact sound
      | some p =>
        rw [collected, Option.all_some, Bool.and_eq_true, decide_eq_true_eq] at even
        obtain ⟨few, even⟩ := even
        have all : td.trbs = walked g 64 cur := collectLoop_walked 64 cur collected (by rw [length_nil]; omega)
        rw [← all] at few ⊢
        have length := normalLoop_pending g rets td.last 0 ⟨0, 0, 0, 0⟩ td.trbs even pending
        have bound := lens_le td.trbs
        refine ⟨sound.answered, ?_, ?_, rfl⟩
        · intro total same
          obtain rfl : lens td.trbs = total := Option.some.inj same
          refine ⟨rfl, ?_, by omega⟩
          simpa [Pending.writes, Record.put] using length
        · simp
  · rw [Bool.eq_false_iff.mpr busy]
    exact sound

theorem sound_write (sound : s.Sound) : s.write.Sound := by
  unfold Async.write
  cases writes : s.writes with
  | nil => exact sound
  | cons w rest =>
    refine ⟨sound.answered, ?_, ?_, sound.free⟩
    · intro total same
      have noted := sound.noted total same
      rwa [writes] at noted
    · intro none
      rw [(sound.released none).1] at writes
      cases writes

theorem sound_done (sound : s.Sound) (ret : Int) (ring : Bool) (written : s.settled (.done ret ring) = true) :
    (xhciCbXferDone s ret ring).Sound := by
  simp only [Async.settled, Bool.and_eq_true] at written
  have none : s.writes = [] := isEmpty_iff.mp written.1
  unfold xhciCbXferDone
  cases current : s.current with
  | none => exact sound
  | some total =>
    obtain ⟨active, length, small⟩ := sound.noted total current
    simp only [none, foldl_nil] at active length
    rw [sound.free]
    refine ⟨?_, by simp, ?_, rfl⟩
    · intro t member
      rcases mem_cons.mp member with rfl | earlier
      · rw [if_pos active, xhciPostEventLocked, if_pos written.2]
        exact transferEvent_answered ret small length
      · exact sound.answered t earlier
    · intro _
      exact ⟨none, rfl⟩

theorem sound_step (s : Async) (e : Event) (sound : s.Sound) (settled : s.settled e = true) :
    (s.step e).Sound := by
  cases e with
  | run g cur rets => exact sound_run sound g cur rets settled
  | write => exact sound_write sound
  | done ret ring => exact sound_done sound ret ring settled
  | stray => cases settled

structure Async.Idle (s : Async) : Prop where
  finished : s.finished = []
  current : s.current = none
  writes : s.writes = []
  inactive : s.record.active = false
  free : s.held = false

/-- Every transfer reported after its record was written, with the length of its descriptor, is answered once. -/
theorem async_run_answered {s : Async} (idle : s.Idle) (events : List Event)
    (admitted : AllSteps Async.step (fun s e => s.settled e = true) s events) :
    ∀ t ∈ visited Async.step s events, t.Lawful := by
  have start : s.Sound := by
    refine ⟨?_, ?_, fun _ => ⟨idle.writes, idle.inactive⟩, idle.free⟩
    · simp [idle.finished]
    · simp [idle.current]
  intro t member
  have sound := invariant sound_step start admitted t member
  exact ⟨sound.answered, fun none => (sound.released none).2⟩

def pairGuest : Guest :=
  { trbAt := fun a =>
      if a = 0x1000 then some ⟨0x8000, 8, 0x411⟩
      else if a = 0x1010 then some ⟨0x8008, 8, 0x401⟩
      else if a = 0x2000 then some ⟨0x8000, 8, 0x401⟩
      else none
    reach := fun _ _ => true }

def idleAsync : Async := ⟨⟨false, 0, 0, 0⟩, [], none, [], false⟩

def loneRun : Event := .run pairGuest ⟨0x2000, true⟩ fun _ => rvvmUsbXferAsync

theorem async_run_answered_pair :
    let run := [.run pairGuest ⟨0x1000, true⟩ (fun i => if i = 0 then -1 else 0), .write, .write, .write, .write,
      .done 16 true]
    (final Async.step idleAsync run).finished.map Finished.events = [[⟨0x1010, 0, compSuccess, 0⟩]] ∧
      ∀ t ∈ visited Async.step idleAsync run, t.Lawful := by
  intro run
  exact ⟨by decide +kernel, async_run_answered ⟨rfl, rfl, rfl, rfl, rfl⟩ run (by decide +kernel)⟩

/-- A report between the answer and the record is lost, and the endpoint stays pending; one that comes in time
finds the length of the TRB counted twice. A doorbell in between leaves the lock locked, and the report waits for it. -/
theorem async_report_lost :
    ((final Async.step idleAsync [loneRun, .done 8 true, .write, .write, .write, .write]).finished.map
        Finished.events = [[]] ∧
      (final Async.step idleAsync [loneRun, .done 8 true, .write, .write, .write, .write]).record.active = true) ∧
      (final Async.step idleAsync [loneRun, .write, .write, .write, .write, .done 8 true]).finished.map
        (fun t => (t.total, t.events)) = [(8, [⟨0x2000, 8, compShortPkt, 0⟩])] ∧
      (final Async.step idleAsync [loneRun, .write, .write, .write, .write, loneRun, .done 8 true]).finished.map
        Finished.events = [[]] := by
  decide +kernel

end Rvvm.XhciRing
