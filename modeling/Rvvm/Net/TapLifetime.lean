import Rvvm.Library.Runs
import Rvvm.Net.TapConn

/-! The life of TCP sockets under two threads. The guest transmits under the lock; the TAP thread
waits for events outside of it and then handles the whole batch and the periodic work under it. So
guest segments fall between the return of `net_poll_wait` and the handling of what it returned. -/
namespace Rvvm.Tap
open Bool List Runs
open Option hiding any_eq_true
open Function (update_of_ne update_self)

/-- `event.data`: a pointer to a `tap_sock_t`. A connection is found in the bucket of its addresses,
which never change, by its socket. -/
inductive PollData where
  | conn (hash : BitVec 64) (sock : Nat)
  | listener (sock : Nat)
  deriving DecidableEq

structure PollEntry where
  data : PollData
  watch : Watch

structure PollEvent where
  data : PollData
  send : Bool

/-- The network, the poll set, and the events that `net_poll_wait` returned; `waiting` until it does.
`faults` counts the events whose socket had been freed when they were handled. -/
structure TapWorld where
  tap : TapDev
  listeners : List TapSock
  poll : List PollEntry
  waiting : Bool
  batch : List PollEvent
  faults : Nat

def TcpSock.ptr (ts : TcpSock) : PollData := .conn (tapTcpHash ts) ts.sock

namespace TapWorld

variable (w : TapWorld)

/-- The connection a pointer refers to, while it is allocated. -/
def conn (hash : BitVec 64) (sock : Nat) : Option TcpSock := (w.tap.tcpMap hash).find? fun ts => ts.sock = sock

def watchOf (data : PollData) : Option Watch := (w.poll.find? fun entry => entry.data = data).map PollEntry.watch

def unwatch (data : PollData) : List PollEntry := w.poll.filter fun entry => entry.data ≠ data

end TapWorld

/-- What the host answers when an event is handled; `accept` is the peer of an accepted connection. -/
structure EventAnswer extends HostAnswer where
  accept : Option NetAddr
  randomSeq : BitVec 32

inductive WorldEvent where
  | guest (h : HostNet) (f : Frame) (base size : Nat) (dst src : NetAddr)
  | pollWait (ready : PollData → Option Bool)
  | process (answers : PollData → EventAnswer) (tick : Bool)
  | listen (addr : NetAddr)

section Guest

variable (h : HostNet) (w : TapWorld) (f : Frame) (base size : Nat) (dst src : NetAddr)

def guestConn : Option TcpSock :=
  tapTcpLookup w.tap { dst with port := f.u16be (base + 2) } { src with port := f.u16be base }

/-- The poll set when `handle_tcp` may free the connection. -/
def pollArmed (ts : TcpSock) : List PollEntry :=
  if tcpAckArms h (f.tcpHeader base) (tcpStart (f.tcpHeader base).flags (f.tcpHeader base).seq
      (f.tcpHeader base).window ts) then w.poll ++ [⟨ts.ptr, .recv⟩]
  else w.poll

/-- `handle_tcp` and what it does to the poll set; closing a socket takes it out. -/
def guestSends : TapWorld :=
  let tap := (handleTcp h w.tap f base size dst src).1
  match guestConn w f base dst src with
  | some ts =>
    let poll := pollArmed h w f base ts
    let freed := (tcpSegment h (f.tcpHeader base) base size ts).cleanup
    { w with tap, poll := if freed then poll.filter (fun entry => entry.data ≠ ts.ptr) else poll }
  | none =>
    if f (base + 13) = tcpFlagSyn ∧ h.tcpConnect ∧ h.pollAdd 3 then
      let hash := tcpHashTuple { dst with port := f.u16be (base + 2) } { src with port := f.u16be base }
      { w with tap, poll := w.poll ++ [⟨.conn hash w.tap.nextSock, .send⟩] }
    else { w with tap }

end Guest

def tapTcpAccept (w : TapWorld) (listener : TapSock) (answer : EventAnswer) : TapWorld :=
  match answer.accept with
  | none => w
  | some remote =>
    let ts := (Conn.inbound ⟨w.tap.nextSock, listener.addr, 0⟩ remote answer.randomSeq).ts
    { w with tap := { tapTcpRegister w.tap ts with nextSock := w.tap.nextSock + 1 } }

def handleEvent (answers : PollData → EventAnswer) (w : TapWorld) (event : PollEvent) : TapWorld :=
  match event.data with
  | .conn hash sock =>
    match w.conn hash sock with
    | none => { w with faults := w.faults + 1 }
    | some ts =>
      match Conn.event event.send (answers event.data).toHostAnswer ⟨ts, w.watchOf event.data⟩ with
      | none => { w with tap := tapTcpRemove w.tap ts, poll := w.unwatch event.data }
      | some c =>
        { w with
          tap := tapTcpStore w.tap c.ts
          poll := if c.watch.isNone then w.unwatch event.data else w.poll }
  | .listener sock =>
    match w.listeners.find? fun ts => ts.sock = sock with
    | none => { w with faults := w.faults + 1 }
    | some ts => tapTcpAccept w ts (answers event.data)

def tapNetPeriodic (w : TapWorld) : TapWorld :=
  let tcpMap := fun hash => (w.tap.tcpMap hash).filterMap fun ts => (Conn.periodic ⟨ts, none⟩).map Conn.ts
  { w with
    tap := { w.tap with tcpMap }
    poll := w.poll.filter fun entry =>
      match entry.data with
      | .conn hash sock => (tcpMap hash).any fun ts => ts.sock = sock
      | .listener _ => true }

/-- `net_poll_wait`: at most 64 of the watched sockets, each once. -/
def pollWait (w : TapWorld) (ready : PollData → Option Bool) : List PollEvent :=
  (w.poll.filterMap fun entry =>
    (ready entry.data).map fun send => ⟨entry.data, send && decide (entry.watch = .send)⟩).take 64

def worldStep (w : TapWorld) : WorldEvent → TapWorld
  | .guest h f base size dst src => guestSends h w f base size dst src
  | .pollWait ready => if w.waiting then { w with waiting := false, batch := pollWait w ready } else w
  | .process answers tick =>
    if w.waiting then w
    else
      let w := w.batch.foldl (handleEvent answers) w
      let w := if tick then tapNetPeriodic w else w
      { w with waiting := true, batch := [] }
  | .listen addr =>
    { w with
      listeners := w.listeners ++ [⟨w.tap.nextSock, addr, 0⟩]
      poll := w.poll ++ [⟨.listener w.tap.nextSock, .recv⟩]
      tap := { w.tap with nextSock := w.tap.nextSock + 1 } }

def freshWorld : TapWorld where
  tap := freshTap
  listeners := []
  poll := []
  waiting := true
  batch := []
  faults := 0

/-- A connection that a guest segment frees is neither watched nor named by an event still to be handled. -/
def FreesSafely (w : TapWorld) : WorldEvent → Prop
  | .guest h f base size dst src =>
    ∀ ts, guestConn w f base dst src = some ts → (tcpSegment h (f.tcpHeader base) base size ts).cleanup = true →
      (∀ entry ∈ pollArmed h w f base ts, entry.data ≠ ts.ptr) ∧ ∀ event ∈ w.batch, event.data ≠ ts.ptr
  | _ => True

/-! The invariant. -/

def watched (poll : List PollEntry) (data : PollData) : Bool := poll.any fun entry => entry.data = data

structure TableOk (tap : TapDev) (poll : List PollEntry) : Prop where
  hashed : ∀ hash, ∀ ts ∈ tap.tcpMap hash, tapTcpHash ts = hash
  unique : ∀ hash, (tap.tcpMap hash).Pairwise fun a b => a.sock ≠ b.sock
  numbered : ∀ hash, ∀ ts ∈ tap.tcpMap hash, ts.sock < tap.nextSock
  ok : ∀ hash, ∀ ts ∈ tap.tcpMap hash, WatchOk (watched poll ts.ptr) ts.tcp

/-- Watched sockets are allocated, and watched once. -/
structure PollOk (tap : TapDev) (listeners : List TapSock) (poll : List PollEntry) : Prop where
  conns : ∀ entry ∈ poll, ∀ hash sock, entry.data = .conn hash sock → ∃ ts ∈ tap.tcpMap hash, ts.sock = sock
  accepts : ∀ entry ∈ poll, ∀ sock, entry.data = .listener sock → ∃ ts ∈ listeners, ts.sock = sock
  nodup : (poll.map PollEntry.data).Nodup
  bound : ∀ ts ∈ listeners, ts.sock < tap.nextSock

/-- The events are of different sockets, all watched. -/
structure BatchOk (poll : List PollEntry) (batch : List PollEvent) : Prop where
  live : ∀ event ∈ batch, watched poll event.data = true
  nodup : (batch.map PollEvent.data).Nodup

variable {data : PollData}

theorem watched_iff {poll : List PollEntry} :
    watched poll data = true ↔ ∃ entry ∈ poll, entry.data = data := by
  rw [watched, any_eq_true]
  simp

theorem watchOf_isSome (w : TapWorld) (data : PollData) : (w.watchOf data).isSome = watched w.poll data := by
  rw [TapWorld.watchOf, Option.isSome_map, watched, Bool.eq_iff_iff, find?_isSome, any_eq_true]

/-- Nothing but one socket changed how it is watched. -/
structure PollChange (poll poll' : List PollEntry) (data : PollData) : Prop where
  added : ∀ entry ∈ poll', entry ∈ poll ∨ entry.data = data
  kept : ∀ other ≠ data, watched poll' other = watched poll other
  nodup : (poll.map PollEntry.data).Nodup → (poll'.map PollEntry.data).Nodup

section
variable (poll : List PollEntry) (data : PollData)

theorem PollChange.same : PollChange poll poll data :=
  ⟨fun _ member => .inl member, fun _ _ => rfl, id⟩

theorem watched_filter (other : PollData) :
    watched (poll.filter fun entry => entry.data ≠ data) other =
      (watched poll other && decide (other ≠ data)) := by
  rw [Bool.eq_iff_iff, Bool.and_eq_true, decide_eq_true_eq, watched_iff, watched_iff]
  constructor
  · rintro ⟨entry, member, rfl⟩
    rw [mem_filter, decide_eq_true_eq] at member
    exact ⟨⟨entry, member.1, rfl⟩, member.2⟩
  · rintro ⟨⟨entry, member, rfl⟩, differ⟩
    exact ⟨entry, mem_filter.mpr ⟨member, decide_eq_true differ⟩, rfl⟩

theorem PollChange.dropped :
    PollChange poll (poll.filter fun entry => entry.data ≠ data) data := by
  refine ⟨fun entry member => .inl (mem_of_mem_filter member), ?_, ?_⟩
  · intro other differ
    rw [watched_filter, decide_eq_true differ, Bool.and_true]
  · intro nodup
    exact nodup.sublist (filter_sublist.map _)

end

theorem PollChange.trans {poll poll' poll'' : List PollEntry}
    (first : PollChange poll poll' data)
    (second : PollChange poll' poll'' data) : PollChange poll poll'' data := by
  refine ⟨?_, ?_, fun nodup => second.nodup (first.nodup nodup)⟩
  · intro entry member
    rcases second.added entry member with old | same
    · exact first.added entry old
    · exact .inr same
  · intro other differ
    rw [second.kept other differ, first.kept other differ]

theorem watched_append (poll : List PollEntry) (entry : PollEntry) (data : PollData) :
    watched (poll ++ [entry]) data = (watched poll data || decide (entry.data = data)) := by
  rw [watched, any_append, any_cons, any_nil, Bool.or_false, watched]

theorem PollChange.watch {poll : List PollEntry} (unwatched : watched poll data = false)
    (watch : Watch) : PollChange poll (poll ++ [⟨data, watch⟩]) data := by
  refine ⟨?_, ?_, ?_⟩
  · intro entry member
    rcases mem_append.mp member with old | new
    · exact .inl old
    · rw [mem_singleton.mp new]
      exact .inr rfl
  · intro other differ
    rw [watched_append, decide_eq_false (Ne.symm differ), Bool.or_false]
  · intro nodup
    rw [map_append, nodup_append]
    refine ⟨nodup, nodup_singleton _, ?_⟩
    intro a old b new same
    obtain ⟨entry, member, rfl⟩ := mem_map.mp old
    rw [mem_singleton.mp new] at same
    exact absurd (watched_iff.mpr ⟨entry, member, same⟩) (by rw [unwatched]; decide)

/-! Connections in the table. -/

theorem TcpSock.SameSock.hash {ts ts' : TcpSock} (same : ts.SameSock ts') : tapTcpHash ts' = tapTcpHash ts := by
  rw [tapTcpHash, same.2.1, same.2.2, tapTcpHash]

theorem TcpSock.SameSock.ptr {ts ts' : TcpSock} (same : ts.SameSock ts') : ts'.ptr = ts.ptr := by
  rw [TcpSock.ptr, same.hash, same.1, TcpSock.ptr]

section Table

variable {tap : TapDev} {listeners : List TapSock} {poll poll' : List PollEntry} {ts ts' : TcpSock}

theorem mem_store (same : ts.SameSock ts') {hash : BitVec 64} {t : TcpSock}
    (member : t ∈ (tapTcpStore tap ts').tcpMap hash) :
    t = ts' ∧ hash = tapTcpHash ts ∨ t ∈ tap.tcpMap hash ∧ ¬ (hash = tapTcpHash ts ∧ t.sock = ts.sock) := by
  rw [tapTcpStore, same.hash] at member
  dsimp only at member
  by_cases here : hash = tapTcpHash ts
  · subst here
    rw [update_self] at member
    obtain ⟨old, inBucket, rfl⟩ := mem_map.mp member
    by_cases own : old.sock = ts'.sock
    · rw [if_pos own]
      exact .inl ⟨rfl, rfl⟩
    · rw [if_neg own]
      refine .inr ⟨inBucket, fun both => own ?_⟩
      rw [both.2, same.1]
  · rw [update_of_ne here] at member
    exact .inr ⟨member, fun both => here both.1⟩

theorem erased {bucket : List TcpSock} (unique : bucket.Pairwise fun a b => a.sock ≠ b.sock) (sock : Nat) :
    ∀ t ∈ bucket.eraseP (fun t => t.sock = sock), t.sock ≠ sock := by
  induction bucket with
  | nil => exact nofun
  | cons head rest ih =>
    obtain ⟨apart, restUnique⟩ := pairwise_cons.mp unique
    intro t member
    by_cases own : head.sock = sock
    · rw [eraseP_cons_of_pos (p :=
        fun t : TcpSock => decide (t.sock = sock)) (decide_eq_true own)] at member
      exact fun same => apart t member (own.trans same.symm)
    · rw [eraseP_cons_of_neg (by rw [decide_eq_true_eq]; exact own)] at member
      rcases mem_cons.mp member with rfl | inRest
      · exact own
      · exact ih restUnique t inRest

section
variable (table : TableOk tap poll)
include table

theorem TableOk.unique_update {key : BitVec 64} {vec : List TcpSock} (own : vec.Pairwise fun a b => a.sock ≠ b.sock)
    (hash : BitVec 64) : (Function.update tap.tcpMap key vec hash).Pairwise fun a b => a.sock ≠ b.sock := by
  by_cases here : hash = key
  · rw [here, update_self]
    exact own
  · rw [update_of_ne here]
    exact table.unique hash

theorem mem_remove (same : ts.SameSock ts') {hash : BitVec 64} {t : TcpSock}
    (member : t ∈ (tapTcpRemove tap ts').tcpMap hash) :
    t ∈ tap.tcpMap hash ∧ ¬ (hash = tapTcpHash ts ∧ t.sock = ts.sock) := by
  rw [tapTcpRemove, same.hash] at member
  dsimp only at member
  by_cases here : hash = tapTcpHash ts
  · subst here
    rw [update_self] at member
    refine ⟨mem_of_mem_eraseP member, fun both => ?_⟩
    have rest := erased (table.unique (tapTcpHash ts)) ts'.sock
    exact rest t member (both.2.trans same.1.symm)
  · rw [update_of_ne here] at member
    exact ⟨member, fun both => here both.1⟩

section
variable (change : PollChange poll poll' ts.ptr)
include change

theorem TableOk.store (live : ts ∈ tap.tcpMap (tapTcpHash ts)) (same : ts.SameSock ts')
    (ok : WatchOk (watched poll' ts.ptr) ts'.tcp) : TableOk (tapTcpStore tap ts') poll' := by
  refine ⟨?_, ?_, ?_, ?_⟩
  · intro hash t member
    rcases mem_store same member with ⟨rfl, rfl⟩ | ⟨old, _⟩
    · exact same.hash
    · exact table.hashed hash t old
  · refine table.unique_update (pairwise_map.mpr ((table.unique _).imp ?_))
    intro a b apart
    split_ifs with ownA ownB ownB
    · exact absurd (ownA.trans ownB.symm) apart
    · exact fun shared => ownB shared.symm
    · exact ownA
    · exact apart
  · intro hash t member
    rcases mem_store same member with ⟨rfl, rfl⟩ | ⟨old, _⟩
    · rw [same.1]
      exact table.numbered _ ts live
    · exact table.numbered hash t old
  · intro hash t member
    rcases mem_store same member with ⟨rfl, rfl⟩ | ⟨old, other⟩
    · rw [same.ptr]
      exact ok
    · rw [change.kept]
      · exact table.ok hash t old
      · intro shared
        rw [TcpSock.ptr, table.hashed hash t old] at shared
        exact other (PollData.conn.inj shared)

theorem TableOk.remove (same : ts.SameSock ts') :
    TableOk (tapTcpRemove tap ts') poll' := by
  refine ⟨?_, ?_, ?_, ?_⟩
  · intro hash t member
    exact table.hashed hash t (mem_remove table same member).1
  · exact table.unique_update ((table.unique _).sublist eraseP_sublist)
  · intro hash t member
    exact table.numbered hash t (mem_remove table same member).1
  · intro hash t member
    obtain ⟨old, other⟩ := mem_remove table same member
    rw [change.kept]
    · exact table.ok hash t old
    · intro shared
      rw [TcpSock.ptr, table.hashed hash t old] at shared
      exact other (PollData.conn.inj shared)

theorem TableOk.register (new : ts.sock = tap.nextSock) (ok : WatchOk (watched poll' ts.ptr) ts.tcp) :
    TableOk { tapTcpRegister tap ts with nextSock := tap.nextSock + 1 } poll' := by
  have bucket {hash : BitVec 64} {t : TcpSock} (member : t ∈ (tapTcpRegister tap ts).tcpMap hash) :
      t = ts ∧ hash = tapTcpHash ts ∨ t ∈ tap.tcpMap hash := by
    rw [tapTcpRegister] at member
    dsimp only at member
    by_cases here : hash = tapTcpHash ts
    · subst here
      rw [update_self] at member
      rcases mem_append.mp member with old | added
      · exact .inr old
      · exact .inl ⟨mem_singleton.mp added, rfl⟩
    · rw [update_of_ne here] at member
      exact .inr member
  refine ⟨?_, ?_, ?_, ?_⟩
  · intro hash t member
    rcases bucket member with ⟨rfl, rfl⟩ | old
    · rfl
    · exact table.hashed hash t old
  · refine table.unique_update (pairwise_append.mpr ⟨table.unique _, pairwise_singleton _ _, ?_⟩)
    intro a old b added
    rw [mem_singleton.mp added, new]
    exact (table.numbered _ a old).ne
  · intro hash t member
    rcases bucket member with ⟨rfl, rfl⟩ | old
    · rw [new]
      exact Nat.lt_succ_self _
    · exact (table.numbered hash t old).trans (Nat.lt_succ_self _)
  · intro hash t member
    rcases bucket member with ⟨rfl, rfl⟩ | old
    · exact ok
    · rw [change.kept]
      · exact table.ok hash t old
      · intro shared
        exact (table.numbered hash t old).ne ((PollData.conn.inj shared).2.trans new)

end

end

/-- What a change of the table has to leave for the watched sockets. -/
theorem PollOk.change (ok : PollOk tap listeners poll) (change : PollChange poll poll' ts.ptr) {tap' : TapDev}
    (others : ∀ hash sock, (∃ t ∈ tap.tcpMap hash, t.sock = sock) → PollData.conn hash sock ≠ ts.ptr →
      ∃ t ∈ tap'.tcpMap hash, t.sock = sock)
    (own : watched poll' ts.ptr = true → ∃ t ∈ tap'.tcpMap (tapTcpHash ts), t.sock = ts.sock)
    (next : tap.nextSock ≤ tap'.nextSock) : PollOk tap' listeners poll' := by
  refine ⟨?_, ?_, change.nodup ok.nodup, fun t member => (ok.bound t member).trans_le next⟩
  · intro entry member hash sock data
    by_cases here : PollData.conn hash sock = ts.ptr
    · have both := PollData.conn.inj here
      rw [both.1, both.2]
      exact own (watched_iff.mpr ⟨entry, member, data.trans here⟩)
    · rcases change.added entry member with old | same
      · exact others hash sock (ok.conns entry old hash sock data) here
      · exact absurd (data.symm.trans same) here
  · intro entry member sock data
    rcases change.added entry member with old | same
    · exact ok.accepts entry old sock data
    · rw [data] at same
      cases same

theorem exists_store (hash : BitVec 64) (sock : Nat)
    (before : ∃ t ∈ tap.tcpMap hash, t.sock = sock) : ∃ t ∈ (tapTcpStore tap ts').tcpMap hash, t.sock = sock := by
  obtain ⟨t, member, rfl⟩ := before
  rw [tapTcpStore]
  dsimp only
  by_cases here : hash = tapTcpHash ts'
  · subst here
    rw [update_self]
    refine ⟨_, mem_map_of_mem member, ?_⟩
    split
    · rename_i own
      exact own.symm
    · rfl
  · rw [update_of_ne here]
    exact ⟨t, member, rfl⟩

theorem exists_remove (same : ts.SameSock ts') (hash : BitVec 64) (sock : Nat)
    (before : ∃ t ∈ tap.tcpMap hash, t.sock = sock) (other : PollData.conn hash sock ≠ ts.ptr) :
    ∃ t ∈ (tapTcpRemove tap ts').tcpMap hash, t.sock = sock := by
  obtain ⟨t, member, rfl⟩ := before
  rw [tapTcpRemove, same.hash]
  dsimp only
  by_cases here : hash = tapTcpHash ts
  · subst here
    have differ : t.sock ≠ ts'.sock := fun own => other (by rw [own, same.1]; rfl)
    rw [update_self]
    exact ⟨t, (mem_eraseP_of_neg (by rw [decide_eq_true_eq]; exact differ)).mpr member, rfl⟩
  · rw [update_of_ne here]
    exact ⟨t, member, rfl⟩

theorem exists_register (hash : BitVec 64) (sock : Nat) (before : ∃ t ∈ tap.tcpMap hash, t.sock = sock) :
    ∃ t ∈ (tapTcpRegister tap ts).tcpMap hash, t.sock = sock := by
  obtain ⟨t, member, rfl⟩ := before
  rw [tapTcpRegister]
  dsimp only
  by_cases here : hash = tapTcpHash ts
  · subst here
    rw [update_self]
    exact ⟨t, mem_append_left _ member, rfl⟩
  · rw [update_of_ne here]
    exact ⟨t, member, rfl⟩

end Table

structure WorldOk (w : TapWorld) : Prop where
  table : TableOk w.tap w.poll
  polled : PollOk w.tap w.listeners w.poll
  batched : BatchOk w.poll w.batch
  sound : w.faults = 0

section
variable {poll poll' : List PollEntry} {batch : List PollEvent} (batched : BatchOk poll batch)
include batched

theorem BatchOk.change (change : PollChange poll poll' data)
    (other : ∀ event ∈ batch, event.data ≠ data) : BatchOk poll' batch := by
  refine ⟨?_, batched.nodup⟩
  intro event member
  rw [change.kept _ (other event member)]
  exact batched.live event member

theorem BatchOk.watching
    (more : ∀ data, watched poll data = true → watched poll' data = true) : BatchOk poll' batch :=
  ⟨fun event member => more _ (batched.live event member), batched.nodup⟩
end

theorem tapTcpLookup_mem {tap : TapDev} {remote loc : NetAddr} {ts : TcpSock}
    (found : tapTcpLookup tap remote loc = some ts) : ts ∈ tap.tcpMap (tapTcpHash ts) := by
  have here := find?_some found
  rw [decide_eq_true_eq] at here
  have member := mem_of_find?_eq_some found
  rw [tapTcpHash, here.1, here.2]
  exact member

section Guest

variable {w : TapWorld} (h : HostNet) (f : Frame) (base size : Nat) {dst src : NetAddr} {ts : TcpSock}

theorem guest_conn (ok : WorldOk w) (found : guestConn w f base dst src = some ts) :
    PollChange w.poll (pollArmed h w f base ts) ts.ptr ∧
      WatchOk (watched (pollArmed h w f base ts) ts.ptr) (tcpSegment h (f.tcpHeader base) base size ts).ts.tcp ∧
      ((tcpSegment h (f.tcpHeader base) base size ts).cleanup = true →
        watched (pollArmed h w f base ts) ts.ptr = false) := by
  have live := tapTcpLookup_mem found
  have connOk : Conn.Ok ⟨ts, w.watchOf ts.ptr⟩ := by
    rw [Conn.Ok, watchOf_isSome]
    exact ok.table.ok _ ts live
  have segment := tcpSegment_ok h (f.tcpHeader base) base size connOk
  have after : (watchAfter h (f.tcpHeader base) ⟨ts, w.watchOf ts.ptr⟩).isSome =
      watched (pollArmed h w f base ts) ts.ptr := by
    rw [watchAfter, pollArmed]
    split
    · rw [watched_append, decide_eq_true rfl, Bool.or_true, isSome_some]
    · exact watchOf_isSome w ts.ptr
  refine ⟨?_, ?_, ?_⟩
  · rw [pollArmed]
    split
    · rename_i arms
      refine PollChange.watch ?_ .recv
      have unwatched : w.watchOf ts.ptr = none := Conn.arms_unwatched connOk arms
      rw [← watchOf_isSome, unwatched, isSome_none]
    · exact PollChange.same _ _
  · rw [← after]
    exact segment.1
  · intro cleanup
    rw [← after, segment.2 cleanup, isSome_none]

theorem guest_freesSafely (ok : WorldOk w) (dst src : NetAddr) : FreesSafely w (.guest h f base size dst src) := by
  intro ts found cleanup
  obtain ⟨change, _, freed⟩ := guest_conn h f base size ok found
  have unwatched := freed cleanup
  have poll : ∀ entry ∈ pollArmed h w f base ts, entry.data ≠ ts.ptr := by
    intro entry member same
    rw [watched_iff.mpr ⟨entry, member, same⟩] at unwatched
    cases unwatched
  refine ⟨poll, ?_⟩
  intro event member same
  obtain ⟨entry, inPoll, data⟩ := watched_iff.mp (ok.batched.live event member)
  have kept : entry ∈ pollArmed h w f base ts := by
    rw [pollArmed]
    split
    · exact mem_append_left _ inPoll
    · exact inPoll
  exact poll entry kept (data.trans same)

theorem handleTcp_unknown (unknown : guestConn w f base dst src = none) :
    (handleTcp h w.tap f base size dst src).1 =
      if f (base + 13) = tcpFlagSyn ∧ h.tcpConnect = true then
        { tapTcpRegister w.tap (Conn.outbound ⟨w.tap.nextSock, { src with port := f.u16be base }, 0⟩
            { dst with port := f.u16be (base + 2) } h.randomSeq (f.tcpHeader base).seq
              (f.tcpHeader base).window).ts
          with nextSock := w.tap.nextSock + 1 }
      else w.tap := by
  rw [guestConn] at unknown
  simp only [handleTcp, unknown]
  by_cases syn : f (base + 13) = tcpFlagSyn
  · by_cases connects : h.tcpConnect = true
    · rw [if_pos syn, if_pos connects, if_pos ⟨syn, connects⟩]
      rfl
    · rw [if_pos syn, if_neg connects, if_neg fun both => connects both.2]
  · rw [if_neg syn, if_neg fun both => syn both.1]

theorem unwatched_new (ok : WorldOk w) {hash : BitVec 64} :
    watched w.poll (.conn hash w.tap.nextSock) = false := by
  rw [eq_false_iff]
  intro is
  obtain ⟨entry, member, data⟩ := watched_iff.mp is
  obtain ⟨ts, live, same⟩ := ok.polled.conns entry member _ _ data
  exact (ok.table.numbered _ ts live).ne same

theorem WorldOk.register (ok : WorldOk w) {poll : List PollEntry} (new : ts.sock = w.tap.nextSock)
    (change : PollChange w.poll poll ts.ptr) (more : ∀ data, watched w.poll data = true → watched poll data = true)
    (connOk : WatchOk (watched poll ts.ptr) ts.tcp) :
    WorldOk { w with tap := { tapTcpRegister w.tap ts with nextSock := w.tap.nextSock + 1 }, poll := poll } := by
  refine ⟨ok.table.register change new connOk, ?_, ok.batched.watching more, ok.sound⟩
  refine ok.polled.change change (fun hash sock before _ => exists_register hash sock before) ?_ (Nat.le_succ _)
  intro _
  refine ⟨ts, ?_, rfl⟩
  rw [tapTcpRegister]
  dsimp only
  rw [update_self]
  exact mem_append_right _ (mem_singleton.mpr rfl)

theorem guestSends_ok (ok : WorldOk w) (dst src : NetAddr) : WorldOk (guestSends h w f base size dst src) := by
  cases found : guestConn w f base dst src with
  | some ts =>
    have live := tapTcpLookup_mem found
    obtain ⟨change, connOk, freed⟩ := guest_conn h f base size ok found
    have same := tcpSegment_sameSock h (f.tcpHeader base) base size ts
    have safe := guest_freesSafely h f base size ok dst src ts found
    have more (data : PollData) (is : watched w.poll data = true) :
        watched (pollArmed h w f base ts) data = true := by
      rw [pollArmed]
      split
      · rw [watched_append, is, Bool.true_or]
      · exact is
    simp only [guestSends, found, handleTcp_known h found]
    by_cases cleanup : (tcpSegment h (f.tcpHeader base) base size ts).cleanup = true
    · rw [if_pos cleanup, if_pos cleanup]
      have dropped := change.trans (PollChange.dropped (pollArmed h w f base ts) ts.ptr)
      refine ⟨ok.table.remove dropped same, ?_, ok.batched.change dropped (safe cleanup).2, ok.sound⟩
      refine ok.polled.change dropped (exists_remove same) ?_ le_rfl
      intro is
      rw [watched_filter, decide_eq_false (not_not_intro rfl), Bool.and_false] at is
      cases is
    · rw [if_neg cleanup, if_neg cleanup]
      refine ⟨ok.table.store change live same connOk, ?_, ok.batched.watching more, ok.sound⟩
      refine ok.polled.change change (fun hash sock before _ => exists_store hash sock before) ?_ le_rfl
      intro _
      exact exists_store _ _ ⟨ts, live, rfl⟩
  | none =>
    simp only [guestSends, found, handleTcp_unknown h f base size found]
    by_cases opens : f (base + 13) = tcpFlagSyn ∧ h.tcpConnect = true
    · rw [if_pos opens]
      by_cases added : h.pollAdd 3 = true
      · rw [if_pos ⟨opens.1, opens.2, added⟩]
        exact ok.register rfl (PollChange.watch (unwatched_new ok) .send)
          (fun data is => by rw [watched_append, is, Bool.true_or]) (Conn.outbound_ok ..)
      · rw [if_neg fun all => added all.2.2]
        exact ok.register rfl (PollChange.same _ _) (fun _ => id) (Conn.outbound_ok ..)
    · rw [if_neg opens, if_neg fun all => opens ⟨all.1, all.2.1⟩]
      exact ok

end Guest

section Thread

variable {w : TapWorld} {answers : PollData → EventAnswer} {hash : BitVec 64} {sock : Nat}

theorem conn_eq_some (ok : WorldOk w)
    (is : watched w.poll (.conn hash sock) = true) :
    ∃ ts, w.conn hash sock = some ts ∧ ts ∈ w.tap.tcpMap (tapTcpHash ts) ∧ ts.ptr = .conn hash sock := by
  obtain ⟨entry, member, data⟩ := watched_iff.mp is
  obtain ⟨t, live, same⟩ := ok.polled.conns entry member hash sock data
  cases found : w.conn hash sock with
  | none =>
    have absent := find?_eq_none.mp found t live
    rw [decide_eq_true_eq] at absent
    exact absurd same absent
  | some ts =>
    have inBucket := mem_of_find?_eq_some found
    have own := find?_some found
    rw [decide_eq_true_eq] at own
    have hashed := ok.table.hashed hash ts inBucket
    refine ⟨ts, rfl, ?_, ?_⟩
    · rw [hashed]
      exact inBucket
    · rw [TcpSock.ptr, hashed, own]

theorem connEvent_ok (ok : WorldOk w) {send : Bool}
    (live : watched w.poll (.conn hash sock) = true) (others : ∀ event ∈ w.batch, event.data ≠ .conn hash sock) :
    WorldOk (handleEvent answers w ⟨.conn hash sock, send⟩) := by
  obtain ⟨ts, found, inTable, ptr⟩ := conn_eq_some ok live
  simp only [handleEvent, found]
  rw [← ptr] at live others ⊢
  have connOk : Conn.Ok ⟨ts, w.watchOf ts.ptr⟩ := by
    rw [Conn.Ok, watchOf_isSome]
    exact ok.table.ok _ ts inTable
  have isWatched : (w.watchOf ts.ptr).isSome = true := by
    rw [watchOf_isSome]
    exact live
  have dropped := PollChange.dropped w.poll ts.ptr
  have gone : watched (w.unwatch ts.ptr) ts.ptr = false := by
    rw [TapWorld.unwatch, watched_filter, decide_eq_false (not_not_intro rfl), Bool.and_false]
  cases after : Conn.event send (answers ts.ptr).toHostAnswer ⟨ts, w.watchOf ts.ptr⟩ with
  | none =>
    have same : ts.SameSock ts := ⟨rfl, rfl, rfl⟩
    refine ⟨ok.table.remove dropped same, ?_, ok.batched.change dropped others, ok.sound⟩
    refine ok.polled.change dropped (exists_remove same) ?_ le_rfl
    intro is
    exact nomatch gone.symm.trans is
  | some c =>
    have same : ts.SameSock c.ts := Conn.event_sameSock after
    have stays (poll : List PollEntry) (change : PollChange w.poll poll ts.ptr)
        (watch : c.watch.isSome = watched poll ts.ptr) :
        WorldOk { w with tap := tapTcpStore w.tap c.ts, poll := poll } := by
      have nowOk := Conn.event_ok connOk isWatched after
      rw [Conn.Ok, watch] at nowOk
      refine ⟨ok.table.store change inTable same nowOk, ?_, ok.batched.change change others, ok.sound⟩
      refine ok.polled.change change (fun hash sock before _ => exists_store hash sock before) ?_ le_rfl
      intro _
      exact exists_store _ _ ⟨ts, inTable, rfl⟩
    dsimp only
    rcases Conn.event_watch after with stopped | kept
    · rw [stopped, isNone_none, if_pos rfl]
      refine stays _ dropped ?_
      rw [stopped]
      exact gone.symm
    · have watching : c.watch.isNone = false := by
        rw [kept, isNone_eq_false_iff]
        exact isWatched
      rw [watching, if_neg nofun]
      refine stays _ (PollChange.same _ _) ?_
      rw [kept, watchOf_isSome]

theorem listenerEvent_ok (ok : WorldOk w) {send : Bool}
    (live : watched w.poll (.listener sock) = true) :
    WorldOk (handleEvent answers w ⟨.listener sock, send⟩) := by
  obtain ⟨entry, member, data⟩ := watched_iff.mp live
  obtain ⟨ts, inList, same⟩ := ok.polled.accepts entry member sock data
  simp only [handleEvent]
  split
  · rename_i absent
    exact absurd same (of_decide_eq_false (eq_false_iff.mpr (find?_eq_none.mp absent ts inList)))
  · rename_i listener found
    rw [tapTcpAccept]
    split
    · exact ok
    · rename_i remote _
      refine ok.register rfl (PollChange.same _ _) (fun _ => id) ?_
      have unwatched : watched w.poll (Conn.inbound ⟨w.tap.nextSock, listener.addr, 0⟩ remote
          (answers (.listener sock)).randomSeq).ts.ptr = false := unwatched_new ok
      rw [unwatched]
      exact Conn.inbound_ok ..

theorem handleEvent_batch (event : PollEvent) (rest : List PollEvent) :
    handleEvent answers { w with batch := rest } event = { handleEvent answers w event with batch := rest } := by
  obtain ⟨data, send⟩ := event
  cases data with
  | conn hash sock =>
    simp only [handleEvent]
    rw [show TapWorld.conn { w with batch := rest } hash sock = w.conn hash sock from rfl]
    cases w.conn hash sock with
    | none => rfl
    | some ts =>
      dsimp only
      rw [show TapWorld.watchOf { w with batch := rest } (.conn hash sock)
        = w.watchOf (.conn hash sock) from rfl]
      cases Conn.event send (answers (.conn hash sock)).toHostAnswer ⟨ts, w.watchOf (.conn hash sock)⟩ <;> rfl
  | listener sock =>
    simp only [handleEvent]
    cases w.listeners.find? fun ts => ts.sock = sock with
    | none => rfl
    | some ts =>
      dsimp only [tapTcpAccept]
      cases (answers (.listener sock)).accept <;> rfl

/-- One event, with the rest of the batch still to come. -/
theorem handleEvent_ok {event : PollEvent} {rest : List PollEvent}
    (ok : WorldOk { w with batch := event :: rest }) :
    WorldOk { handleEvent answers w event with batch := rest } := by
  obtain ⟨table, polled, batched, sound⟩ := ok
  have live : watched w.poll event.data = true := batched.live event mem_cons_self
  have rested : WorldOk { w with batch := rest } := by
    refine ⟨table, polled, ⟨fun other member => ?_, (nodup_cons.mp batched.nodup).2⟩, sound⟩
    exact batched.live other (mem_cons_of_mem event member)
  have others : ∀ other ∈ rest, other.data ≠ event.data := by
    intro other member same
    refine (nodup_cons.mp batched.nodup).1 ?_
    rw [← same]
    exact mem_map_of_mem member
  rw [← handleEvent_batch]
  obtain ⟨data, send⟩ := event
  cases data with
  | conn hash sock => exact connEvent_ok rested live others
  | listener sock => exact listenerEvent_ok rested live

theorem handleEvents_ok {batch : List PollEvent} (ok : WorldOk { w with batch := batch }) :
    WorldOk { batch.foldl (handleEvent answers) w with batch := [] } := by
  induction batch generalizing w with
  | nil => exact ok
  | cons event rest ih => exact ih (handleEvent_ok ok)

theorem periodic_some {ts : TcpSock} {c : Conn} (after : Conn.periodic ⟨ts, none⟩ = some c) :
    ts.SameSock c.ts ∧ c.ts.tcp = ts.tcp := by
  unfold Conn.periodic at after
  dsimp only at after
  split_ifs at after
  cases after
  exact ⟨⟨rfl, rfl, rfl⟩, rfl⟩

theorem mem_periodic {ts : TcpSock} (member : ts ∈ (tapNetPeriodic w).tap.tcpMap hash) :
    ∃ old ∈ w.tap.tcpMap hash, old.SameSock ts ∧ ts.tcp = old.tcp := by
  obtain ⟨old, inBucket, kept⟩ := mem_filterMap.mp member
  obtain ⟨c, after, rfl⟩ := map_eq_some_iff.mp kept
  exact ⟨old, inBucket, periodic_some after⟩

theorem tapNetPeriodic_ok (ok : WorldOk { w with batch := [] }) :
    WorldOk { tapNetPeriodic w with batch := [] } := by
  have fewer : ∀ data, watched (tapNetPeriodic w).poll data = true → watched w.poll data = true := by
    intro data is
    obtain ⟨entry, member, rfl⟩ := watched_iff.mp is
    exact watched_iff.mpr ⟨entry, mem_of_mem_filter member, rfl⟩
  refine ⟨⟨?_, ?_, ?_, ?_⟩, ⟨?_, ?_, ?_, ok.polled.bound⟩, ⟨?_, nodup_nil⟩, ok.sound⟩
  · intro hash ts member
    obtain ⟨old, inBucket, same, _⟩ := mem_periodic member
    rw [same.hash]
    exact ok.table.hashed hash old inBucket
  · intro hash
    refine (ok.table.unique hash).filterMap _ ?_
    intro a b apart a' fromA b' fromB
    obtain ⟨c, afterA, rfl⟩ := map_eq_some_iff.mp fromA
    obtain ⟨d, afterB, rfl⟩ := map_eq_some_iff.mp fromB
    rw [(periodic_some afterA).1.1, (periodic_some afterB).1.1]
    exact apart
  · intro hash ts member
    obtain ⟨old, inBucket, same, _⟩ := mem_periodic member
    rw [same.1]
    exact ok.table.numbered hash old inBucket
  · intro hash ts member
    obtain ⟨old, inBucket, same, tcp⟩ := mem_periodic member
    have before := ok.table.ok hash old inBucket
    rw [same.ptr, tcp]
    exact ⟨fun either => before.balanced (either.imp_left (fewer _)), fun is => before.exclusive (fewer _ is)⟩
  · intro entry member hash sock data
    have left := (mem_filter.mp member).2
    rw [data] at left
    obtain ⟨ts, inBucket, own⟩ := any_eq_true.mp left
    exact ⟨ts, inBucket, of_decide_eq_true own⟩
  · intro entry member sock data
    exact ok.polled.accepts entry (mem_of_mem_filter member) sock data
  · exact ok.polled.nodup.sublist (filter_sublist.map _)
  · exact nofun

theorem pollWait_ok (ok : WorldOk w) (ready : PollData → Option Bool) : BatchOk w.poll (pollWait w ready) := by
  constructor
  · intro event member
    obtain ⟨entry, inPoll, found⟩ := mem_filterMap.mp (mem_of_mem_take member)
    obtain ⟨send, _, rfl⟩ := map_eq_some_iff.mp found
    exact watched_iff.mpr ⟨entry, inPoll, rfl⟩
  · refine Nodup.sublist ((take_sublist 64 _).map _) (pairwise_map.mpr ?_)
    refine (pairwise_map.mp ok.polled.nodup).filterMap _ ?_
    intro a b apart a' fromA b' fromB
    obtain ⟨_, _, rfl⟩ := map_eq_some_iff.mp fromA
    obtain ⟨_, _, rfl⟩ := map_eq_some_iff.mp fromB
    exact apart

theorem listen_ok (ok : WorldOk w) (addr : NetAddr) : WorldOk (worldStep w (.listen addr)) := by
  have unwatched : watched w.poll (.listener w.tap.nextSock) = false := by
    rw [eq_false_iff]
    intro is
    obtain ⟨entry, member, data⟩ := watched_iff.mp is
    obtain ⟨ts, inList, same⟩ := ok.polled.accepts entry member _ data
    exact (ok.polled.bound ts inList).ne same
  have change := PollChange.watch unwatched .recv
  refine ⟨⟨ok.table.hashed, ok.table.unique, ?_, ?_⟩, ⟨?_, ?_, change.nodup ok.polled.nodup, ?_⟩, ?_, ok.sound⟩
  · exact fun hash ts member => (ok.table.numbered hash ts member).trans (Nat.lt_succ_self _)
  · intro hash ts member
    have kept : watched (worldStep w (.listen addr)).poll ts.ptr = watched w.poll ts.ptr :=
      change.kept ts.ptr (fun same => by cases same)
    rw [kept]
    exact ok.table.ok hash ts member
  · intro entry member hash sock data
    rcases change.added entry member with old | new
    · exact ok.polled.conns entry old hash sock data
    · cases data.symm.trans new
  · intro entry member sock data
    rcases change.added entry member with old | new
    · obtain ⟨ts, inList, same⟩ := ok.polled.accepts entry old sock data
      exact ⟨ts, mem_append_left _ inList, same⟩
    · cases data.symm.trans new
      exact ⟨_, mem_append_right _ (mem_singleton.mpr rfl), rfl⟩
  · intro ts member
    rcases mem_append.mp member with old | new
    · exact (ok.polled.bound ts old).trans (Nat.lt_succ_self _)
    · rw [mem_singleton.mp new]
      exact Nat.lt_succ_self _
  · refine ok.batched.watching ?_
    intro data is
    rw [worldStep, watched_append, is, Bool.true_or]

theorem process_ok (ok : WorldOk w) (answers : PollData → EventAnswer) (tick : Bool) :
    WorldOk (worldStep w (.process answers tick)) := by
  have unwaited {w : TapWorld} (ok : WorldOk { w with batch := [] }) :
    WorldOk { w with waiting := true, batch := [] } :=
    ⟨ok.table, ok.polled, ok.batched, ok.sound⟩
  have handled : WorldOk { w.batch.foldl (handleEvent answers) w with batch := [] } := handleEvents_ok ok
  rw [worldStep]
  split
  · exact ok
  · split
    · exact unwaited (tapNetPeriodic_ok handled)
    · exact unwaited handled

end Thread

theorem worldStep_ok {w : TapWorld} (ok : WorldOk w) (event : WorldEvent) : WorldOk (worldStep w event) := by
  cases event with
  | guest h f base size dst src => exact guestSends_ok h f base size ok dst src
  | pollWait ready =>
    rw [worldStep]
    split
    · exact ⟨ok.table, ok.polled, pollWait_ok ok ready, ok.sound⟩
    · exact ok
  | process answers tick => exact process_ok ok answers tick
  | listen addr => exact listen_ok ok addr

theorem freshWorld_ok : WorldOk freshWorld := by
  refine ⟨⟨?_, fun _ => .nil, ?_, ?_⟩, ⟨?_, ?_, .nil, ?_⟩, ⟨?_, .nil⟩, rfl⟩
  · exact nofun
  · exact nofun
  · exact nofun
  all_goals exact nofun

theorem WorldOk.freesSafely {w : TapWorld} (ok : WorldOk w) (event : WorldEvent) : FreesSafely w event := by
  cases event with
  | guest h f base size dst src => exact guest_freesSafely h f base size ok dst src
  | pollWait ready | process answers tick | listen addr => trivial

/-- However the guest's segments and the TAP thread interleave, `handle_tcp` frees sockets only when
nothing refers to them, and no event is handled for a freed one. -/
theorem sockets_outlive_events (events : List WorldEvent) :
    AllSteps worldStep FreesSafely freshWorld events ∧ ∀ w ∈ visited worldStep freshWorld events,
      w.faults = 0 := by
  have any : AllSteps worldStep (fun _ _ => True) freshWorld events := AllSteps.always (fun _ _ => trivial) _ _
  constructor
  · exact AllSteps.entails (fun _ event ok _ => worldStep_ok ok event) (fun _ event ok _ => ok.freesSafely event)
      freshWorld_ok any
  · have reachable : ∀ w ∈ visited worldStep freshWorld events, WorldOk w :=
      invariant (fun _ event ok _ => worldStep_ok ok event) freshWorld_ok any
    exact fun w reached => (reachable w reached).sound

end Rvvm.Tap
