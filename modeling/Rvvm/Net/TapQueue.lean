import Rvvm.Library.Runs
import Rvvm.Net.TapConn

/-! The retransmission queue of a TCP connection over its whole life. Beside the connection a trace
keeps the sequence number each queued frame carries in its header, and whether a SYN or FIN sent to
the guest is unacknowledged. -/
namespace Rvvm.Tap
open Bool List Option Runs
open BitVec hiding cons_append
open BitVec (ofInt ofNat)

/-- The bytes `tap_tcp_recv` asks for, `TAP_FRAME_SIZE - TCP_WRAP_SIZE`. -/
def tcpRecvRoom : Nat := 1514 - 54

/-- What can happen to a connection. `net_tcp_recv` yields at most what it was asked for. -/
inductive ConnEvent where
  | segment (h : HostNet) (f : Frame) (base size : Nat)
  | poll (send : Bool) (answer : HostAnswer) (fits : answer.recv ≤ tcpRecvRoom)
  | tick

/-- A socket has events while it is watched, with `NET_POLL_SEND` only if it is watched for that. -/
def Conn.step (c : Conn) : ConnEvent → Option Conn
  | .segment h f base size => c.segment h (f.tcpHeader base) base size
  | .poll send answer _ =>
    if c.watch.isSome then c.event (send && decide (c.watch = some .send)) answer else some c
  | .tick => c.periodic

/-! The trace. -/

/-- A frame kept for retransmission: the sequence number in its header and the size of its data. -/
structure QueuedSegment where
  start : BitVec 32
  size : Nat

structure TcpTrace where
  conn : Conn
  queue : List QueuedSegment
  marked : Bool

/-- Whether the connection waits for an acknowledgement of the SYN or FIN it sent, and takes this
one: of a FIN when the guest's receiving side is closed, of a SYN ACK, of a SYN only with the SYN of
the guest. The latter two need the poll set. -/
def tcpAwaits (h : HostNet) (flags state : BitVec 8) : Bool :=
  (has state tcpStateEstablished && !has state tcpStateRecvOpen) ||
    (decide (state = tcpStateSendOpen ||| tcpStateRecvOpen) && h.pollAdd 1) ||
    (decide (state = tcpStateRecvOpen) && has flags tcpFlagSyn && h.pollAdd 2)

/-- The segment acknowledges the SYN or FIN that was sent last, and all data before it. -/
def tcpTakesMark (h : HostNet) (hd : TcpHeader) (ts : TcpSock) : Bool :=
  let l := tcpAckWindow h (tcpAckQueue hd.ack (tcpStart hd.flags hd.seq hd.window ts))
  has hd.flags tcpFlagAck && tcpAcksLast hd.ack l && tcpAwaits h hd.flags l.ts.tcp.state

/-- The guest acknowledges everything sent to it. -/
def tcpAcksAll (hd : TcpHeader) (tcp : TcpCtx) : Bool := has hd.flags tcpFlagAck && decide (hd.ack = tcp.seq)

/-- The event sends a SYN ACK or a FIN to the guest. -/
def Conn.sendsMark (c : Conn) (send : Bool) (answer : HostAnswer) : Bool :=
  if send then answer.status else tcpWindowAvail c.ts.tcp && decide (answer.recv = netErrDisconnect)

/-- The frames an event added, all with the sequence number from before it. -/
def pushed (c c' : Conn) : List QueuedSegment :=
  (c'.ts.tcp.segments.drop c.ts.tcp.segments.length).map fun size => ⟨c.ts.tcp.seq, size⟩

def freedCount (c c' : Conn) : Nat := c.ts.tcp.segments.length - c'.ts.tcp.segments.length

def TcpTrace.after (t : TcpTrace) (e : ConnEvent) (c : Conn) : TcpTrace where
  conn := c
  queue := t.queue.drop (freedCount t.conn c) ++ pushed t.conn c
  marked := match e with
    | .segment _ f base _ => t.marked && !tcpAcksAll (f.tcpHeader base) t.conn.ts.tcp
    | .poll send answer _ =>
      t.marked || (t.conn.watch.isSome &&
        t.conn.sendsMark (send && decide (t.conn.watch = some .send)) answer)
    | .tick => t.marked

/-- `none` once the connection is freed. -/
def TcpTrace.step : Option TcpTrace → ConnEvent → Option TcpTrace
  | none, _ => none
  | some t, e => (t.conn.step e).map (t.after e)

/-- A connection is opened by the guest's SYN, or by a peer that was accepted and whose SYN was
passed to the guest. The former is not watched if the poll set failed. -/
inductive Opened : TcpTrace → Prop
  | outbound (ts : TapSock) (remote : NetAddr) (randomSeq seq : BitVec 32) (window : BitVec 16)
    (watch : Option Watch)
      (only : watch = none ∨ watch = some .send) :
      Opened ⟨{ Conn.outbound ts remote randomSeq seq window with watch }, [], false⟩
  | inbound (ts : TapSock) (remote : NetAddr) (randomSeq : BitVec 32) :
      Opened ⟨Conn.inbound ts remote randomSeq, [], true⟩

/-- The frames carry consecutive sequence numbers. -/
def Consecutive : BitVec 32 → List QueuedSegment → Prop
  | _, [] => True
  | next, seg :: rest => seg.start = next ∧ Consecutive (next + ofNat 32 seg.size) rest

def queueBytes (queue : List QueuedSegment) : Nat := (queue.map QueuedSegment.size).sum

structure QueueBalanced (t : TcpTrace) : Prop where
  sizes : t.conn.ts.tcp.segments = t.queue.map QueuedSegment.size
  outstanding : t.conn.ts.tcp.seq - t.conn.ts.tcp.seqAck = ofNat 32 (queueBytes t.queue + t.marked.toNat)
  consecutive : Consecutive t.conn.ts.tcp.seqAck t.queue

/-- The acknowledgement number is past the frame, in the half of the number space ahead of it. -/
def QueuedSegment.Covered (seg : QueuedSegment) (ack : BitVec 32) : Prop :=
  seg.size ≤ (ack - seg.start).toNat ∧ (ack - seg.start).toNat < 0x80000000

def Acknowledges : ConnEvent → QueuedSegment → Prop
  | .segment _ f base _, seg =>
    has (f.tcpHeader base).flags tcpFlagAck = true ∧ seg.Covered (f.tcpHeader base).ack
  | _, _ => False

/-- What is freed on the way to `next`: some of the queue, or all of it with the connection. -/
def TcpTrace.freed (t : TcpTrace) : Option Conn → List QueuedSegment
  | some c => t.queue.take (freedCount t.conn c)
  | none => t.queue

/-- A step frees only what the guest acknowledges in it. -/
def FreesAcknowledged : Option TcpTrace → ConnEvent → Prop
  | none, _ => True
  | some t, e => ∀ seg ∈ t.freed (t.conn.step e), Acknowledges e seg

/-! When a connection is closed in order. -/

/-- The connection is reset: by the guest, or because the poll set or the socket fails. -/
def Broken (h : HostNet) (hd : TcpHeader) : Prop :=
  has hd.flags tcpFlagRst = true ∨ (h.pollAdd 0 && h.pollAdd 1 && h.pollAdd 2) = false ∨
    (h.tcpSend < 0 ∧ h.tcpSend ≠ netErrBlock)

/-- Established, and closed by the host. -/
def HostClosed (state : BitVec 8) : Prop :=
  has state tcpStateEstablished = true ∧ ¬ has state tcpStateRecvOpen = true

/-- What tears a connection down, at once or at the next tick: a reset, a failure of the host, a timeout,
and the guest's FIN once the host has closed its side. -/
def Conn.TornDown (c : Conn) : ConnEvent → Prop
  | .segment h f base _ =>
    Broken h (f.tcpHeader base) ∨ (has (f.tcpHeader base).flags tcpFlagFin = true ∧ HostClosed c.ts.tcp.state)
  | .poll send answer _ =>
    c.watch.isSome = true ∧
      if send && decide (c.watch = some .send) then answer.status = false
      else answer.recv ≤ 0 ∧ answer.recv ≠ netErrDisconnect ∧ answer.recv ≠ netErrBlock
  | .tick =>
    c.ts.tcp.state = tcpStateClosed ∨ 300 < c.ts.timeout + 1 ∨
      (50 < c.ts.timeout + 1 ∧ has c.ts.tcp.state tcpStateEstablished = false)

/-- The guest acknowledges a SYN or FIN while the connection awaits it. -/
def Awaited (t : TcpTrace) : ConnEvent → Prop
  | .segment h f base _ => t.marked = true → tcpAcksAll (f.tcpHeader base) t.conn.ts.tcp = true →
    tcpAwaits h (f.tcpHeader base).flags t.conn.ts.tcp.state = true
  | _ => True

/-- A connection is torn down only with what the guest acknowledges in that event. -/
def Orderly : Option TcpTrace → ConnEvent → Prop
  | none, _ => True
  | some t, e => Awaited t e ∧ (t.conn.TornDown e → ∀ seg ∈ t.queue, Acknowledges e seg)

section Decide

instance decidableBroken (h : HostNet) (hd : TcpHeader) : Decidable (Broken h hd) :=
  inferInstanceAs (Decidable (_ ∨ _ ∨ _))

instance decidableHostClosed (state : BitVec 8) : Decidable (HostClosed state) := inferInstanceAs (Decidable (_ ∧ _))

instance decidableTornDown (c : Conn) : ∀ e, Decidable (c.TornDown e)
  | .segment _ _ _ _ => inferInstanceAs (Decidable (_ ∨ _ ∧ _))
  | .poll send _ _ =>
    if sends : (send && decide (c.watch = some .send)) = true then
      decidable_of_iff _ (and_congr_right fun _ => (if_pos sends).to_iff.symm)
    else decidable_of_iff _ (and_congr_right fun _ => (if_neg sends).to_iff.symm)
  | .tick => inferInstanceAs (Decidable (_ ∨ _ ∨ _))

instance decidableAwaited (t : TcpTrace) : ∀ e, Decidable (Awaited t e)
  | .segment _ _ _ _ => inferInstanceAs (Decidable (_ → _ → _))
  | .poll _ _ _ | .tick => inferInstanceAs (Decidable True)

instance decidableAcknowledges : ∀ e seg, Decidable (Acknowledges e seg)
  | .segment _ _ _ _, _ => inferInstanceAs (Decidable (_ ∧ _ ∧ _))
  | .poll _ _ _, _ | .tick, _ => inferInstanceAs (Decidable False)

instance decidableFreesAcknowledged : ∀ s e, Decidable (FreesAcknowledged s e)
  | none, _ => inferInstanceAs (Decidable True)
  | some t, e => inferInstanceAs (Decidable (∀ seg ∈ t.freed (t.conn.step e), Acknowledges e seg))

instance decidableOrderly : ∀ s e, Decidable (Orderly s e)
  | none, _ => inferInstanceAs (Decidable True)
  | some t, e => inferInstanceAs (Decidable (Awaited t e ∧ (t.conn.TornDown e → ∀ seg ∈ t.queue, Acknowledges e seg)))

end Decide

/-! The queue under an acknowledgement. -/

theorem queueBytes_append (a b : List QueuedSegment) : queueBytes (a ++ b) = queueBytes a + queueBytes b := by
  rw [queueBytes, map_append, sum_append, queueBytes, queueBytes]

theorem queueBytes_cons (seg : QueuedSegment) (rest : List QueuedSegment) :
    queueBytes (seg :: rest) = seg.size + queueBytes rest := by
  rw [queueBytes, map_cons, sum_cons, queueBytes]

/-- The queue splits into what `ack` frees and what stays, which starts at `next`. -/
structure Frees (ack seqAck : BitVec 32) (queue freed rest : List QueuedSegment) (next : BitVec 32) : Prop where
  parts : queue = freed ++ rest
  advanced : next = seqAck + ofNat 32 (queueBytes freed)
  consecutive : Consecutive next rest
  covered : ∀ seg ∈ freed, 0 < seg.size → seg.Covered ack
  stops : ∀ seg tail, rest = seg :: tail → tcpAckAmount next ack < seg.size

theorem tcpFreeAcked_frees (ack : BitVec 32) (queue : List QueuedSegment) (seqAck : BitVec 32)
    (consecutive : Consecutive seqAck queue) :
    ∃ freed rest, Frees ack seqAck queue freed rest (tcpFreeAcked ack (queue.map QueuedSegment.size) seqAck).2 ∧
      (tcpFreeAcked ack (queue.map QueuedSegment.size) seqAck).1 = rest.map QueuedSegment.size := by
  induction queue generalizing seqAck with
  | nil =>
    refine ⟨[], [], ⟨rfl, (BitVec.add_zero seqAck).symm, trivial, ?_, ?_⟩, rfl⟩
    · exact nofun
    · exact nofun
  | cons head rest ih =>
    obtain ⟨start, later⟩ := consecutive
    rw [map_cons, tcpFreeAcked]
    by_cases acked : head.size ≤ tcpAckAmount seqAck ack
    · obtain ⟨freed, kept, frees, sizes⟩ := ih _ later
      rw [if_pos acked]
      refine ⟨head :: freed, kept, ⟨?_, ?_, frees.consecutive, ?_, frees.stops⟩, sizes⟩
      · rw [frees.parts, cons_append]
      · rw [frees.advanced, queueBytes_cons, ofNat_add, ← BitVec.add_assoc]
      · intro seg member positive
        rcases mem_cons.mp member with rfl | inFreed
        · rw [tcpAckAmount, ← start] at acked
          split at acked
          next near => exact ⟨acked, near⟩
          next far => omega
        · exact frees.covered seg inFreed positive
    · rw [if_neg acked]
      refine ⟨[], head :: rest, ⟨rfl, (BitVec.add_zero seqAck).symm, ⟨start, later⟩, ?_, ?_⟩, rfl⟩
      · exact nofun
      · intro seg tail same
        obtain ⟨rfl, -⟩ := cons.inj same
        exact not_le.mp acked

/-- What the phases after the acknowledgement leave alone. -/
structure SameQueue (a b : TcpCtx) : Prop where
  segments : b.segments = a.segments
  seq : b.seq = a.seq
  seqAck : b.seqAck = a.seqAck
  winFull : b.winFull = a.winFull

namespace SameQueue

theorem trans {a b c : TcpCtx} (first : SameQueue a b) (second : SameQueue b c) : SameQueue a c :=
  ⟨second.segments.trans first.segments, second.seq.trans first.seq, second.seqAck.trans first.seqAck,
    second.winFull.trans first.winFull⟩

end SameQueue

section Segment
variable (h : HostNet) (hd : TcpHeader) (base size : Nat) (l : TcpStep)

theorem tcpDataPhase_sameQueue : SameQueue l.ts.tcp (tcpDataPhase h base size hd.dataOff hd.seq l).ts.tcp := by
  unfold tcpDataPhase
  dsimp only
  split_ifs <;> exact ⟨rfl, rfl, rfl, rfl⟩

theorem tcpFinPhase_sameQueue : SameQueue l.ts.tcp (tcpFinPhase hd.flags hd.seq size hd.dataOff l).ts.tcp := by
  unfold tcpFinPhase
  split_ifs <;> exact ⟨rfl, rfl, rfl, rfl⟩

theorem tcpReplyPhase_sameQueue : SameQueue l.ts.tcp (tcpReplyPhase hd.flags l).ts.tcp := by
  unfold tcpReplyPhase
  split_ifs <;> exact ⟨rfl, rfl, rfl, rfl⟩

theorem tcpSegment_sameQueue (ts : TcpSock) :
    SameQueue (tcpAckPhase h hd.flags hd.seq hd.ack (tcpStart hd.flags hd.seq hd.window ts)).ts.tcp
      (tcpSegment h hd base size ts).ts.tcp :=
  (tcpDataPhase_sameQueue h hd base size _).trans
    ((tcpFinPhase_sameQueue hd size _).trans (tcpReplyPhase_sameQueue hd _))

theorem tcpAckWindow_queue :
    (tcpAckWindow h l).ts.tcp = { l.ts.tcp with winFull := (tcpAckWindow h l).ts.tcp.winFull } ∧
      ((tcpAckWindow h l).ts.tcp.winFull = true → l.ts.tcp.winFull = true) := by
  unfold tcpAckWindow
  split
  · exact ⟨rfl, nofun⟩
  · exact ⟨rfl, id⟩

/-- The connection after the acknowledgement of everything sent; at most one of the three answers
applies. -/
def tcpAckLast : TcpStep := tcpAckSyn h hd.flags hd.seq (tcpAckSynAck h (tcpAckFin l))

theorem tcpAckLast_queue :
    (tcpAckLast h hd l).ts.tcp.segments = l.ts.tcp.segments ∧ (tcpAckLast h hd l).ts.tcp.seq = l.ts.tcp.seq ∧
      (tcpAckLast h hd l).ts.tcp.winFull = l.ts.tcp.winFull ∧
      (tcpAckLast h hd l).ts.tcp.seqAck =
        l.ts.tcp.seqAck + if tcpAwaits h hd.flags l.ts.tcp.state then 1 else 0 := by
  unfold tcpAckLast tcpAwaits
  by_cases fin : has l.ts.tcp.state tcpStateEstablished = true ∧ ¬ has l.ts.tcp.state tcpStateRecvOpen = true
  · have waits : l.ts.tcp.state ≠ tcpStateSendOpen ||| tcpStateRecvOpen := by
      intro same
      rw [same] at fin
      exact absurd fin (by decide)
    have opens : l.ts.tcp.state ≠ tcpStateRecvOpen := by
      intro same
      rw [same] at fin
      exact absurd fin (by decide)
    rw [tcpAckFin, if_pos fin, tcpAckSynAck, if_neg waits, tcpAckSyn, if_neg fun both => opens both.1]
    simp [fin]
  rw [tcpAckFin, if_neg fin]
  have finless : (has l.ts.tcp.state tcpStateEstablished && !has l.ts.tcp.state tcpStateRecvOpen) = false := by
    simpa using fin
  rw [finless]
  by_cases waits : l.ts.tcp.state = tcpStateSendOpen ||| tcpStateRecvOpen
  · have opens : ∀ state : BitVec 8, state = tcpStateSendOpen ||| tcpStateRecvOpen → state ≠ tcpStateRecvOpen ∧
        state ||| tcpStateEstablished ≠ tcpStateRecvOpen := by
      rintro state rfl
      decide
    obtain ⟨before, after⟩ := opens _ waits
    rw [tcpAckSynAck, if_pos waits]
    by_cases added : h.pollAdd 1 = true
    · rw [if_pos added, tcpAckSyn, if_neg fun both => after both.1]
      simp [waits, added]
    · rw [if_neg added, tcpAckSyn, if_neg fun both => before both.1]
      simp [before, added]
  rw [tcpAckSynAck, if_neg waits, decide_eq_false waits, Bool.false_and, tcpAckSyn]
  by_cases syn : l.ts.tcp.state = tcpStateRecvOpen ∧ has hd.flags tcpFlagSyn = true
  · rw [if_pos syn]
    by_cases added : h.pollAdd 2 = true
    · simp [syn, added]
    · simp [added]
  · rw [if_neg syn]
    have synless : (decide (l.ts.tcp.state = tcpStateRecvOpen) && has hd.flags tcpFlagSyn) = false := by
      simpa using syn
    rw [synless]
    simp

/-- The queue and the first unacknowledged number after the guest's acknowledgement, if it carries one. -/
def tcpQueueAcked (tcp : TcpCtx) : List Nat × BitVec 32 :=
  if has hd.flags tcpFlagAck then tcpFreeAcked hd.ack tcp.segments tcp.seqAck else (tcp.segments, tcp.seqAck)

theorem tcpSegment_queue (ts : TcpSock) :
    (tcpSegment h hd base size ts).ts.tcp.segments = (tcpQueueAcked hd ts.tcp).1 ∧
    (tcpSegment h hd base size ts).ts.tcp.seq = ts.tcp.seq ∧
    (tcpSegment h hd base size ts).ts.tcp.seqAck =
      (tcpQueueAcked hd ts.tcp).2 + (if tcpTakesMark h hd ts then 1 else 0) ∧
    ((tcpSegment h hd base size ts).ts.tcp.winFull = true → ts.tcp.winFull = true) := by
  have same := tcpSegment_sameQueue h hd base size ts
  rw [same.segments, same.seq, same.seqAck, same.winFull]
  have takes : tcpTakesMark h hd ts = (has hd.flags tcpFlagAck &&
      tcpAcksLast hd.ack (tcpAckWindow h (tcpAckQueue hd.ack (tcpStart hd.flags hd.seq hd.window ts))) &&
      tcpAwaits h hd.flags
        (tcpAckWindow h (tcpAckQueue hd.ack (tcpStart hd.flags hd.seq hd.window ts))).ts.tcp.state) := rfl
  rw [takes]
  unfold tcpAckPhase tcpQueueAcked
  by_cases acks : has hd.flags tcpFlagAck = true
  · rw [if_pos acks, if_pos acks, acks, Bool.true_and]
    obtain ⟨window, full⟩ := tcpAckWindow_queue h (tcpAckQueue hd.ack (tcpStart hd.flags hd.seq hd.window ts))
    generalize tcpAckWindow h (tcpAckQueue hd.ack (tcpStart hd.flags hd.seq hd.window ts)) = l at window full ⊢
    have queue : l.ts.tcp.segments = (tcpFreeAcked hd.ack ts.tcp.segments ts.tcp.seqAck).1 ∧
        l.ts.tcp.seq = ts.tcp.seq ∧ l.ts.tcp.seqAck = (tcpFreeAcked hd.ack ts.tcp.segments ts.tcp.seqAck).2 := by
      rw [window]
      exact ⟨rfl, rfl, rfl⟩
    by_cases last : tcpAcksLast hd.ack l = true
    · obtain ⟨segments, seq, winFull, seqAck⟩ := tcpAckLast_queue h hd l
      rw [if_pos (of_decide_eq_true last), last]
      refine ⟨segments.trans queue.1, seq.trans queue.2.1, ?_, fun is => full (winFull.symm.trans is)⟩
      rw [← queue.2.2]
      exact seqAck
    · rw [if_neg (of_decide_eq_false (eq_false_iff.mpr last)), eq_false_iff.mpr last, Bool.false_and]
      refine ⟨queue.1, queue.2.1, ?_, full⟩
      rw [queue.2.2]
      exact (BitVec.add_zero _).symm
  · rw [if_neg acks, if_neg acks, eq_false_iff.mpr acks, Bool.false_and, Bool.false_and,
      if_neg nofun]
    exact ⟨rfl, rfl, (BitVec.add_zero _).symm, id⟩

theorem tcpTakesMark_last {ts : TcpSock} (takes : tcpTakesMark h hd ts = true) :
    has hd.flags tcpFlagAck = true ∧ ts.tcp.seq = (tcpFreeAcked hd.ack ts.tcp.segments ts.tcp.seqAck).2 + 1 ∧
      hd.ack = ts.tcp.seq := by
  unfold tcpTakesMark at takes
  simp only [and_eq_true] at takes
  have window := (tcpAckWindow_queue h (tcpAckQueue hd.ack (tcpStart hd.flags hd.seq hd.window ts))).1
  have last := of_decide_eq_true takes.1.2
  rw [window] at last
  exact ⟨takes.1.1, last⟩

theorem tcpTakesMark_of_last {ts : TcpSock} (acks : has hd.flags tcpFlagAck = true)
    (one : ts.tcp.seq = (tcpFreeAcked hd.ack ts.tcp.segments ts.tcp.seqAck).2 + 1) (last : hd.ack = ts.tcp.seq)
    (awaits : tcpAwaits h hd.flags ts.tcp.state = true) : tcpTakesMark h hd ts = true := by
  have window := (tcpAckWindow_queue h (tcpAckQueue hd.ack (tcpStart hd.flags hd.seq hd.window ts))).1
  unfold tcpTakesMark
  simp only [and_eq_true]
  refine ⟨⟨acks, decide_eq_true ?_⟩, ?_⟩
  · rw [window]
    exact ⟨one, last⟩
  · rw [window]
    exact awaits

theorem tcpAcksAll_of_takesMark {ts : TcpSock} (takes : tcpTakesMark h hd ts = true) :
    tcpAcksAll hd ts.tcp = true := by
  obtain ⟨acks, -, last⟩ := tcpTakesMark_last h hd takes
  rw [tcpAcksAll, acks, decide_eq_true last, Bool.and_self]

/-! What closes a connection. -/

/-- Within `handle_tcp`, for a segment `hd` on the socket `ts`: a reset has a cause, and the connection is
to be freed for the acknowledgement of its FIN, or for the guest's FIN after the host's. -/
structure Closes (ts : TcpSock) : Prop where
  reset : l.reset = true → Broken h hd
  cleanup : l.cleanup = true →
    tcpTakesMark h hd ts = true ∨ (has hd.flags tcpFlagFin = true ∧ HostClosed ts.tcp.state)
  state : HostClosed l.ts.tcp.state → HostClosed ts.tcp.state

section Closing

variable {h hd l} {ts : TcpSock}

theorem Broken.pollAdd (k : Nat) (failed : h.pollAdd k = false) (within : k < 3) : Broken h hd := by
  refine .inr (.inl ?_)
  interval_cases k <;> simp [failed]

theorem Closes.ackWindow (closes : Closes h hd l ts) : Closes h hd (tcpAckWindow h l) ts := by
  unfold tcpAckWindow
  split
  · refine ⟨fun reset => ?_, closes.cleanup, closes.state⟩
    rcases or_eq_true_iff.mp reset with before | now
    · exact closes.reset before
    · exact .pollAdd 0 (Bool.not_eq_eq_eq_not.mp now) (by decide)
  · exact closes

theorem Closes.ackFin (closes : Closes h hd l ts) (takes : HostClosed l.ts.tcp.state → tcpTakesMark h hd ts = true) :
    Closes h hd (tcpAckFin l) ts := by
  unfold tcpAckFin
  split
  · next closed => exact ⟨closes.reset, fun _ => .inl (takes closed), closes.state⟩
  · exact closes

theorem Closes.ackSynAck (closes : Closes h hd l ts) : Closes h hd (tcpAckSynAck h l) ts := by
  unfold tcpAckSynAck
  split
  · next waits =>
    dsimp only
    split
    · refine ⟨closes.reset, closes.cleanup, fun closed => absurd ?_ closed.2⟩
      dsimp only
      rw [waits]
      decide
    · next failed =>
      exact ⟨fun _ => .pollAdd 1 (eq_false_iff.mpr failed) (by decide), closes.cleanup, closes.state⟩
  · exact closes

theorem Closes.ackSyn (closes : Closes h hd l ts) : Closes h hd (tcpAckSyn h hd.flags hd.seq l) ts := by
  unfold tcpAckSyn
  split
  · next accepts =>
    dsimp only
    split
    · refine ⟨closes.reset, closes.cleanup, fun closed => absurd ?_ closed.2⟩
      dsimp only
      rw [accepts.1]
      decide
    · next failed =>
      exact ⟨fun _ => .pollAdd 2 (eq_false_iff.mpr failed) (by decide), closes.cleanup, closes.state⟩
  · exact closes

theorem closes_ackPhase (h : HostNet) (hd : TcpHeader) (ts : TcpSock) :
    Closes h hd (tcpAckPhase h hd.flags hd.seq hd.ack (tcpStart hd.flags hd.seq hd.window ts)) ts := by
  have start : Closes h hd (tcpStart hd.flags hd.seq hd.window ts) ts := ⟨.inl, nofun, id⟩
  have queue : Closes h hd (tcpAckQueue hd.ack (tcpStart hd.flags hd.seq hd.window ts)) ts :=
    ⟨start.reset, start.cleanup, start.state⟩
  unfold tcpAckPhase
  split
  · next acks =>
    dsimp only
    split
    · next last =>
      refine ((queue.ackWindow.ackFin fun closed => ?_).ackSynAck).ackSyn
      unfold tcpTakesMark tcpAwaits
      dsimp only
      rw [acks, tcpAcksLast, decide_eq_true last, closed.1, eq_false_iff.mpr closed.2]
      rfl
    · exact queue.ackWindow
  · exact start

theorem Closes.dataPhase (closes : Closes h hd l ts) (base size : Nat) :
    Closes h hd (tcpDataPhase h base size hd.dataOff hd.seq l) ts := by
  unfold tcpDataPhase
  dsimp only
  split_ifs with sending room sent failed
  · exact ⟨closes.reset, closes.cleanup, closes.state⟩
  · exact ⟨fun _ => .inr (.inr ⟨not_le.mp sent, failed⟩), closes.cleanup, closes.state⟩
  · exact ⟨closes.reset, closes.cleanup, closes.state⟩
  · exact ⟨closes.reset, closes.cleanup, closes.state⟩
  · exact closes

theorem hostClosed_of_clear {state : BitVec 8} (closed : HostClosed (state &&& ~~~ tcpStateSendOpen)) :
    HostClosed state := by
  obtain ⟨established, receiving⟩ := has_clear_sendOpen state
  rw [HostClosed, established, receiving] at closed
  exact closed

theorem hostClosed_established {state : BitVec 8} (is : state = tcpStateEstablished) : HostClosed state := by
  rw [HostClosed, is]
  decide

theorem Closes.finPhase (closes : Closes h hd l ts) (size : Nat) :
    Closes h hd (tcpFinPhase hd.flags hd.seq size hd.dataOff l) ts := by
  unfold tcpFinPhase
  split
  · next fin =>
    have frees (state : BitVec 8) (closed : HostClosed state → HostClosed ts.tcp.state)
        (cleanup : (l.cleanup || decide (state = tcpStateEstablished)) = true) :
        tcpTakesMark h hd ts = true ∨ (has hd.flags tcpFlagFin = true ∧ HostClosed ts.tcp.state) := by
      rcases or_eq_true_iff.mp cleanup with before | now
      · exact closes.cleanup before
      · exact .inr ⟨fin.1, closed (hostClosed_established (of_decide_eq_true now))⟩
    split
    · have state : HostClosed (l.ts.tcp.state &&& ~~~ tcpStateSendOpen) → HostClosed ts.tcp.state :=
        fun closed => closes.state (hostClosed_of_clear closed)
      exact ⟨closes.reset, frees _ state, state⟩
    · exact ⟨closes.reset, frees _ closes.state, closes.state⟩
  · exact closes

/-- A segment frees the connection as it acknowledges the FIN, or tears it down. -/
theorem tcpSegment_closes {base size : Nat} (cleanup : (tcpSegment h hd base size ts).cleanup = true) :
    tcpTakesMark h hd ts = true ∨ Broken h hd ∨ (has hd.flags tcpFlagFin = true ∧ HostClosed ts.tcp.state) := by
  have closes := ((closes_ackPhase h hd ts).dataPhase base size).finPhase size
  unfold tcpSegment tcpReplyPhase at cleanup
  split at cleanup
  · next reset => exact .inr (.inl (closes.reset reset))
  · have before : (tcpFinPhase hd.flags hd.seq size hd.dataOff (tcpDataPhase h base size hd.dataOff hd.seq
        (tcpAckPhase h hd.flags hd.seq hd.ack (tcpStart hd.flags hd.seq hd.window ts)))).cleanup = true := by
      split at cleanup <;> exact cleanup
    exact (closes.cleanup before).imp_right .inr

end Closing

theorem tcpAckArms_cases {ts : TcpSock} (arms : tcpAckArms h hd (tcpStart hd.flags hd.seq hd.window ts) = true) :
    ts.tcp.winFull = true ∨ tcpTakesMark h hd ts = true := by
  unfold tcpAckArms at arms
  simp only [and_eq_true, or_eq_true] at arms
  obtain ⟨acks, window | ⟨last, opened⟩⟩ := arms
  · unfold tcpWindowArms at window
    simp only [and_eq_true] at window
    exact .inl window.1.1.1
  · right
    unfold tcpTakesMark
    simp only [and_eq_true]
    refine ⟨⟨acks, last⟩, ?_⟩
    generalize tcpAckWindow h (tcpAckQueue hd.ack (tcpStart hd.flags hd.seq hd.window ts)) = l at opened ⊢
    have kept : (tcpAckFin l).ts.tcp.state = l.ts.tcp.state := by
      unfold tcpAckFin
      split <;> rfl
    unfold tcpAwaits
    simp only [or_eq_true, and_eq_true]
    rcases opened with answered | accepted
    · unfold tcpSynAckArms at answered
      rw [kept, and_eq_true] at answered
      exact .inl (.inr answered)
    · unfold tcpSynArms at accepted
      simp only [and_eq_true, decide_eq_true_eq] at accepted
      have state : (tcpAckSynAck h (tcpAckFin l)).ts.tcp.state = l.ts.tcp.state := by
        have opens := accepted.1.1
        unfold tcpAckSynAck at opens ⊢
        by_cases waits : (tcpAckFin l).ts.tcp.state = tcpStateSendOpen ||| tcpStateRecvOpen
        · rw [if_pos waits] at opens
          split at opens
          · dsimp only at opens
            rw [waits] at opens
            cases opens
          · exact absurd (waits.symm.trans opens) (by decide)
        · rw [if_neg waits]
          exact kept
      rw [state] at accepted
      exact .inr ⟨⟨decide_eq_true accepted.1.1, accepted.1.2⟩, accepted.2⟩

end Segment

/-- A socket in the poll set, or out of it for a full window, has no SYN or FIN outstanding, and the
queue is bounded by the window. -/
structure TraceOk (t : TcpTrace) : Prop extends QueueBalanced t where
  ok : t.conn.Ok
  quiet : t.conn.watch.isSome = true ∨ t.conn.ts.tcp.winFull = true → t.marked = false
  positive : ∀ seg ∈ t.queue, 0 < seg.size
  bound : queueBytes t.queue ≤ 0x10000 + tcpRecvRoom

section Invariant
variable {t : TcpTrace} {c : Conn}

theorem toNat_le_one (b : Bool) : b.toNat ≤ 1 := by
  cases b <;> decide

theorem TraceOk.outstanding_toNat (ok : TraceOk t) :
    (t.conn.ts.tcp.seq - t.conn.ts.tcp.seqAck).toNat = queueBytes t.queue + t.marked.toNat := by
  have bound := ok.bound
  have mark := toNat_le_one t.marked
  rw [ok.outstanding, toNat_ofNat]
  unfold tcpRecvRoom at bound
  omega

/-- An acknowledgement of everything sent frees the whole queue. -/
theorem rest_eq_nil {ack seqAck next seq : BitVec 32} {queue freed rest : List QueuedSegment} {marked : Bool}
    (frees : Frees ack seqAck queue freed rest next)
    (outstanding : (seq - next).toNat = queueBytes rest + marked.toNat)
    (bound : queueBytes rest + marked.toNat < 0x80000000) (last : ack = seq) : rest = [] := by
  cases rest with
  | nil => rfl
  | cons seg tail =>
    have stops := frees.stops seg tail rfl
    rw [last, tcpAckAmount, outstanding, if_pos bound, queueBytes_cons] at stops
    omega

/-- With the queue freed as far as `ack` goes, one number outstanding is the SYN or FIN. -/
theorem marked_of_last {ack seqAck next seq : BitVec 32} {queue freed rest : List QueuedSegment} {marked : Bool}
    (frees : Frees ack seqAck queue freed rest next)
    (outstanding : (seq - next).toNat = queueBytes rest + marked.toNat) (one : seq = next + 1) (last : ack = seq) :
    marked = true ∧ rest = [] := by
  have single : 1 = queueBytes rest + marked.toNat := by
    rw [← outstanding, one, BitVec.add_comm, BitVec.add_sub_cancel]
    rfl
  obtain rfl := rest_eq_nil frees outstanding (single ▸ by decide) last
  refine ⟨?_, rfl⟩
  cases marked with
  | true => rfl
  | false => cases single

theorem TcpTrace.after_segment {freed rest : List QueuedSegment} (h : HostNet) (f : Frame) (base size : Nat)
    (before : t.conn.ts.tcp.segments = t.queue.map QueuedSegment.size) (parts : t.queue = freed ++ rest)
    (left : c.ts.tcp.segments = rest.map QueuedSegment.size) :
    freedCount t.conn c = freed.length ∧
      t.after (.segment h f base size) c =
        ⟨c, rest, t.marked && !tcpAcksAll (f.tcpHeader base) t.conn.ts.tcp⟩ := by
  have count : freedCount t.conn c = freed.length := by
    rw [freedCount, before, left, length_map, length_map, parts, length_append]
    omega
  have nothing : pushed t.conn c = [] := by
    rw [pushed, before, left, drop_of_length_le, map_nil]
    rw [length_map, length_map, parts, length_append]
    omega
  refine ⟨count, ?_⟩
  rw [TcpTrace.after, count, nothing, parts, drop_left, append_nil]

theorem TraceOk.outstanding_rest (ok : TraceOk t) {freed rest : List QueuedSegment} {next : BitVec 32}
    (parts : t.queue = freed ++ rest)
    (advanced : next = t.conn.ts.tcp.seqAck + ofNat 32 (queueBytes freed)) :
    (t.conn.ts.tcp.seq - next).toNat = queueBytes rest + t.marked.toNat := by
  have total := ok.outstanding_toNat
  have bound := ok.bound
  rw [parts, queueBytes_append] at total bound
  bv_omega

theorem tcpQueueAcked_frees (hd : TcpHeader) (ok : TraceOk t) :
    ∃ freed rest, t.queue = freed ++ rest ∧ (tcpQueueAcked hd t.conn.ts.tcp).1 = rest.map QueuedSegment.size ∧
      (tcpQueueAcked hd t.conn.ts.tcp).2 = t.conn.ts.tcp.seqAck + ofNat 32 (queueBytes freed) ∧
      Consecutive (tcpQueueAcked hd t.conn.ts.tcp).2 rest ∧
      (∀ seg ∈ freed, has hd.flags tcpFlagAck = true ∧ seg.Covered hd.ack) ∧
      ∀ h, tcpTakesMark h hd t.conn.ts = true → t.marked = true ∧ rest = [] := by
  unfold tcpQueueAcked
  by_cases acks : has hd.flags tcpFlagAck = true
  · rw [if_pos acks, ok.sizes]
    obtain ⟨freed, rest, frees, sizes⟩ := tcpFreeAcked_frees hd.ack t.queue t.conn.ts.tcp.seqAck ok.consecutive
    have positive (seg : QueuedSegment) (member : seg ∈ freed) : 0 < seg.size :=
      ok.positive seg (frees.parts ▸ mem_append_left _ member)
    refine ⟨freed, rest, frees.parts, sizes, frees.advanced, frees.consecutive, ?_, ?_⟩
    · intro seg member
      exact ⟨acks, frees.covered seg member (positive seg member)⟩
    · intro h takes
      obtain ⟨-, one, last⟩ := tcpTakesMark_last h hd takes
      rw [ok.sizes] at one
      exact marked_of_last frees (ok.outstanding_rest frees.parts frees.advanced) one last
  · rw [if_neg acks]
    refine ⟨[], t.queue, rfl, ok.sizes, (BitVec.add_zero _).symm, ok.consecutive, ?_, ?_⟩
    · exact nofun
    · exact fun h takes => absurd (tcpTakesMark_last h hd takes).1 acks

/-- An awaited SYN or FIN is taken as acknowledged exactly when the guest acknowledges everything. -/
theorem TraceOk.marked_after (ok : TraceOk t) {h : HostNet} {f : Frame} {base size : Nat}
    (awaited : Awaited t (.segment h f base size)) :
    (t.marked && !tcpAcksAll (f.tcpHeader base) t.conn.ts.tcp) =
      (t.marked && !tcpTakesMark h (f.tcpHeader base) t.conn.ts) := by
  cases marked : t.marked with
  | false => rfl
  | true =>
    suffices same : tcpAcksAll (f.tcpHeader base) t.conn.ts.tcp = tcpTakesMark h (f.tcpHeader base) t.conn.ts by
      rw [same]
    rw [Bool.eq_iff_iff]
    refine ⟨fun all => ?_, tcpAcksAll_of_takesMark h _⟩
    obtain ⟨acks, last⟩ := and_eq_true _ _ ▸ all
    rw [decide_eq_true_eq] at last
    obtain ⟨freed, rest, frees, -⟩ :=
      tcpFreeAcked_frees (f.tcpHeader base).ack t.queue t.conn.ts.tcp.seqAck ok.consecutive
    have outstanding := ok.outstanding_rest frees.parts frees.advanced
    have bound := ok.bound
    rw [frees.parts, queueBytes_append, tcpRecvRoom] at bound
    obtain rfl := rest_eq_nil frees outstanding (by have := toNat_le_one t.marked; omega) last
    refine tcpTakesMark_of_last h _ acks ?_ last (awaited marked all)
    rw [ok.sizes]
    rw [marked] at outstanding
    change _ = 1 at outstanding
    bv_omega

theorem TraceOk.segment (ok : TraceOk t) {h : HostNet} {f : Frame} {base size : Nat}
    (awaited : Awaited t (.segment h f base size))
    (after : t.conn.segment h (f.tcpHeader base) base size = some c) :
    TraceOk (t.after (.segment h f base size) c) ∧
      ∀ seg ∈ t.queue.take (freedCount t.conn c), Acknowledges (.segment h f base size) seg := by
  have shape := Conn.eq_of_segment after
  have okNext : c.Ok := by
    rw [shape]
    exact (tcpSegment_ok h (f.tcpHeader base) base size ok.ok).1
  obtain ⟨segments, seq, seqAck, full⟩ := tcpSegment_queue h (f.tcpHeader base) base size t.conn.ts
  obtain ⟨freed, rest, parts, sizes, next, consecutive, covered, last⟩ := tcpQueueAcked_frees (f.tcpHeader base) ok
  have left : c.ts.tcp.segments = rest.map QueuedSegment.size := by
    rw [shape, ← sizes]
    exact segments
  obtain ⟨count, state⟩ := TcpTrace.after_segment h f base size ok.sizes parts left
  rw [ok.marked_after awaited] at state
  have outstanding := ok.outstanding_rest parts next
  have numbers : c.ts.tcp.seq = t.conn.ts.tcp.seq ∧
    c.ts.tcp.seqAck = (tcpQueueAcked (f.tcpHeader base) t.conn.ts.tcp).2 +
      if tcpTakesMark h (f.tcpHeader base) t.conn.ts then 1 else 0 := by
    rw [shape]
    exact ⟨seq, seqAck⟩
  have wasFull : c.ts.tcp.winFull = true → t.conn.ts.tcp.winFull = true := by
    rw [shape]
    exact full
  have watch : c.watch = watchAfter h (f.tcpHeader base) t.conn := by
    rw [shape]
  have balanced : QueueBalanced ⟨c, rest, t.marked && !tcpTakesMark h (f.tcpHeader base) t.conn.ts⟩ := by
    cases takes : tcpTakesMark h (f.tcpHeader base) t.conn.ts with
    | true =>
      obtain ⟨marked, rfl⟩ := last h takes
      refine ⟨left, ?_, trivial⟩
      rw [numbers.1, numbers.2, takes, marked]
      rw [marked] at outstanding
      change (t.conn.ts.tcp.seq - (tcpQueueAcked (f.tcpHeader base) t.conn.ts.tcp).2).toNat = 1 at outstanding
      change t.conn.ts.tcp.seq - ((tcpQueueAcked (f.tcpHeader base) t.conn.ts.tcp).2 + 1) = 0
      bv_omega
    | false =>
      have advance : c.ts.tcp.seqAck = (tcpQueueAcked (f.tcpHeader base) t.conn.ts.tcp).2 := by
        rw [numbers.2, takes]
        exact BitVec.add_zero _
      refine ⟨left, ?_, ?_⟩
      · rw [numbers.1, advance, Bool.not_false, Bool.and_true]
        refine eq_of_toNat_eq (outstanding.trans ?_)
        rw [toNat_ofNat, Nat.mod_eq_of_lt]
        exact outstanding ▸ isLt _
      · rw [advance]
        exact consecutive
  constructor
  · rw [state]
    refine ⟨balanced, okNext, ?_, ?_, ?_⟩
    · rintro (watched | isFull)
      · rw [watch, watchAfter] at watched
        split at watched
        next arms =>
          rcases tcpAckArms_cases h (f.tcpHeader base) arms with isFull | takes
          · rw [ok.quiet (.inr isFull), Bool.false_and]
          · rw [takes, Bool.not_true, Bool.and_false]
        next idle => rw [ok.quiet (.inl watched), Bool.false_and]
      · rw [ok.quiet (.inr (wasFull isFull)), Bool.false_and]
    · intro seg member
      exact ok.positive seg (parts ▸ mem_append_right _ member)
    · have bound := ok.bound
      rw [parts, queueBytes_append] at bound
      exact le_trans (Nat.le_add_left _ _) bound
  · rw [count, parts, take_left]
    exact covered

theorem consecutive_append {next : BitVec 32} {queue : List QueuedSegment} {seg : QueuedSegment}
    (consecutive : Consecutive next queue) (follows : seg.start = next + ofNat 32 (queueBytes queue)) :
    Consecutive next (queue ++ [seg]) := by
  induction queue generalizing next with
  | nil => exact ⟨follows.trans (BitVec.add_zero next), trivial⟩
  | cons head rest ih =>
    refine ⟨consecutive.1, ih consecutive.2 ?_⟩
    rw [follows, queueBytes_cons, ofNat_add, BitVec.add_assoc]

theorem TcpTrace.after_kept (e : ConnEvent) (kept : c.ts.tcp.segments = t.conn.ts.tcp.segments) :
    freedCount t.conn c = 0 ∧ (t.after e c).queue = t.queue := by
  have count : freedCount t.conn c = 0 := by
    rw [freedCount, kept, Nat.sub_self]
  refine ⟨count, ?_⟩
  change t.queue.drop (freedCount t.conn c) ++ pushed t.conn c = t.queue
  rw [count, drop_zero, pushed, kept, drop_length, map_nil, append_nil]

section
variable (ok : TraceOk t)
include ok

theorem TraceOk.unqueued (e : ConnEvent) (segments : c.ts.tcp.segments = t.conn.ts.tcp.segments)
    (seqAck : c.ts.tcp.seqAck = t.conn.ts.tcp.seqAck) (okNext : c.Ok)
    (outstanding : c.ts.tcp.seq - t.conn.ts.tcp.seqAck =
      ofNat 32 (queueBytes t.queue + (t.after e c).marked.toNat))
    (quiet : c.watch.isSome = true ∨ c.ts.tcp.winFull = true → (t.after e c).marked = false) :
    TraceOk (t.after e c) ∧ freedCount t.conn c = 0 := by
  obtain ⟨count, queue⟩ := TcpTrace.after_kept e segments
  refine ⟨⟨⟨?_, ?_, ?_⟩, okNext, quiet, ?_, ?_⟩, count⟩
  · rw [queue]
    exact segments.trans ok.sizes
  · rw [queue]
    exact (congrArg (c.ts.tcp.seq - ·) seqAck).trans outstanding
  · rw [queue]
    change Consecutive c.ts.tcp.seqAck t.queue
    rw [seqAck]
    exact ok.consecutive
  · rw [queue]
    exact ok.positive
  · rw [queue]
    exact ok.bound

theorem TraceOk.outstanding_mark (unmarked : t.marked = false) :
    t.conn.ts.tcp.seq + 1 - t.conn.ts.tcp.seqAck = ofNat 32 (queueBytes t.queue + true.toNat) := by
  have outstanding := ok.outstanding
  rw [unmarked] at outstanding
  rw [ofNat_add, ← outstanding.trans (congrArg (ofNat 32) (Nat.add_zero (queueBytes t.queue)))]
  exact add_sub_comm

theorem TraceOk.connected {send : Bool} {answer : HostAnswer} (fits : answer.recv ≤ tcpRecvRoom)
    (watched : t.conn.watch.isSome = true) (sends : (send && decide (t.conn.watch = some .send)) = true)
    (after : t.conn.connected answer.status = some c) (okNext : c.Ok) :
    TraceOk (t.after (.poll send answer fits) c) ∧ freedCount t.conn c = 0 := by
  unfold Conn.connected at after
  split at after
  next status =>
    obtain rfl := some.inj after
    have marked (c : Conn) : (t.after (.poll send answer fits) c).marked = true := by
      change (t.marked || (t.conn.watch.isSome && t.conn.sendsMark _ answer)) = true
      rw [watched, sends, Conn.sendsMark, status]
      exact or_true _
    refine ok.unqueued _ rfl rfl okNext ?_ ?_
    · rw [marked]
      exact ok.outstanding_mark (ok.quiet (.inl watched))
    · have room := ok.ok.exclusive watched
      rintro (is | full)
      · cases is
      · exact nomatch room.symm.trans full
  next refused => cases after

theorem TraceOk.push {e : ConnEvent} {result : Int} (positive : 0 < result)
    (fits : result ≤ tcpRecvRoom) (avail : tcpWindowAvail t.conn.ts.tcp = true) (unmarked : t.marked = false)
    (segments : c.ts.tcp.segments = t.conn.ts.tcp.segments ++ [result.toNat])
    (seq : c.ts.tcp.seq = t.conn.ts.tcp.seq + ofInt 32 result)
    (seqAck : c.ts.tcp.seqAck = t.conn.ts.tcp.seqAck) (okNext : c.Ok)
    (unmarkedNext : (t.after e c).marked = false) :
    TraceOk (t.after e c) ∧ freedCount t.conn c = 0 := by
  have count : freedCount t.conn c = 0 := by
    rw [freedCount, segments, length_append]
    omega
  have queue : (t.after e c).queue = t.queue ++ [⟨t.conn.ts.tcp.seq, result.toNat⟩] := by
    change t.queue.drop (freedCount t.conn c) ++ pushed t.conn c = _
    rw [count, drop_zero, pushed, segments, drop_left, map_singleton]
  have word : ofInt 32 result = ofNat 32 result.toNat := by
    rw [← ofInt_natCast, Int.toNat_of_nonneg positive.le]
  have outstanding := ok.outstanding
  rw [unmarked] at outstanding
  have next : t.conn.ts.tcp.seq = t.conn.ts.tcp.seqAck + ofNat 32 (queueBytes t.queue) := by
    rw [← outstanding.trans (congrArg (ofNat 32) (Nat.add_zero (queueBytes t.queue))), BitVec.add_comm]
    exact (sub_add_cancel _ _).symm
  have single : queueBytes [⟨t.conn.ts.tcp.seq, result.toNat⟩] = result.toNat := Nat.add_zero _
  refine ⟨⟨⟨?_, ?_, ?_⟩, okNext, fun _ => unmarkedNext, ?_, ?_⟩, count⟩
  · rw [queue, map_append, ← ok.sizes]
    exact segments
  · rw [queue, unmarkedNext, queueBytes_append, single]
    change c.ts.tcp.seq - c.ts.tcp.seqAck = ofNat 32 (queueBytes t.queue + result.toNat)
    rw [seq, seqAck, word, next, ofNat_add, BitVec.add_assoc, BitVec.add_comm]
    exact add_sub_cancel _ _
  · rw [queue]
    refine consecutive_append ?_ ?_
    · change Consecutive c.ts.tcp.seqAck t.queue
      rw [seqAck]
      exact ok.consecutive
    · change t.conn.ts.tcp.seq = c.ts.tcp.seqAck + _
      rw [seqAck]
      exact next
  · intro seg member
    rw [queue] at member
    rcases mem_append.mp member with old | new
    · exact ok.positive seg old
    · rw [mem_singleton.mp new]
      exact Int.pos_iff_toNat_pos.mp positive
  · have total := ok.outstanding_toNat
    have window := of_decide_eq_true avail
    rw [queue, queueBytes_append]
    omega

theorem TraceOk.recv {send : Bool} {answer : HostAnswer} (fits : answer.recv ≤ tcpRecvRoom)
    (watched : t.conn.watch.isSome = true) (receives : (send && decide (t.conn.watch = some .send)) = false)
    (after : t.conn.recv answer.recv = some c) (okNext : c.Ok) :
    TraceOk (t.after (.poll send answer fits) c) ∧ freedCount t.conn c = 0 := by
  have unmarked := ok.quiet (.inl watched)
  have room := ok.ok.exclusive watched
  have marks (c : Conn) : (t.after (.poll send answer fits) c).marked =
      (tcpWindowAvail t.conn.ts.tcp && decide (answer.recv = netErrDisconnect)) := by
    change (t.marked || (t.conn.watch.isSome && t.conn.sendsMark _ answer)) = _
    rw [watched, receives, Conn.sendsMark, if_neg nofun, unmarked, Bool.false_or, Bool.true_and]
  have outstanding := ok.outstanding
  unfold Conn.recv at after
  split_ifs at after with full data closed failed
  · -- the window is full
    obtain rfl := some.inj after
    have avail : tcpWindowAvail t.conn.ts.tcp = false := by simpa using full
    refine ok.unqueued _ rfl rfl okNext ?_ ?_
    · rw [marks, avail, Bool.false_and, ← unmarked]
      exact outstanding
    · intro _
      rw [marks, avail, Bool.false_and]
  · obtain rfl := some.inj after
    have avail : tcpWindowAvail t.conn.ts.tcp = true := by simpa using full
    refine ok.push data fits avail unmarked rfl rfl rfl okNext ?_
    have stays : answer.recv ≠ netErrDisconnect := by
      unfold netErrDisconnect
      omega
    rw [marks, decide_eq_false stays, Bool.and_false]
  · -- the peer closed its side
    obtain rfl := some.inj after
    have avail : tcpWindowAvail t.conn.ts.tcp = true := by simpa using full
    refine ok.unqueued _ rfl rfl okNext ?_ ?_
    · rw [marks, avail, Bool.true_and, decide_eq_true closed]
      exact ok.outstanding_mark unmarked
    · rintro (is | isFull)
      · cases is
      · exact nomatch room.symm.trans isFull
  · -- nothing to receive
    obtain rfl := some.inj after
    have unmarkedNext : (t.after (.poll send answer fits) t.conn).marked = false := by
      rw [marks, decide_eq_false closed, Bool.and_false]
    refine ok.unqueued _ rfl rfl okNext ?_ fun _ => unmarkedNext
    rw [unmarkedNext, ← unmarked]
    exact outstanding

/-- One event keeps the invariant, and frees only what it acknowledges. -/
theorem TraceOk.step {e : ConnEvent} (awaited : Awaited t e) (after : t.conn.step e = some c) :
    TraceOk (t.after e c) ∧ ∀ seg ∈ t.queue.take (freedCount t.conn c), Acknowledges e seg := by
  have nothing {e : ConnEvent} (kept : TraceOk (t.after e c) ∧ freedCount t.conn c = 0) :
      TraceOk (t.after e c) ∧ ∀ seg ∈ t.queue.take (freedCount t.conn c), Acknowledges e seg := by
    refine ⟨kept.1, ?_⟩
    rw [kept.2]
    exact nofun
  cases e with
  | segment h f base size => exact ok.segment awaited after
  | poll send answer fits =>
    apply nothing
    unfold Conn.step at after
    dsimp only at after
    by_cases watched : t.conn.watch.isSome = true
    · rw [if_pos watched] at after
      have okNext := Conn.event_ok ok.ok watched after
      unfold Conn.event at after
      split at after
      next sends => exact ok.connected fits watched sends after okNext
      next receives => exact ok.recv fits watched (eq_false_iff.mpr receives) after okNext
    · rw [if_neg watched] at after
      obtain rfl := some.inj after
      have marked : (t.after (.poll send answer fits) t.conn).marked = t.marked := by
        change (t.marked || (t.conn.watch.isSome && _)) = t.marked
        rw [eq_false_iff.mpr watched, Bool.false_and, Bool.or_false]
      exact ok.unqueued _ rfl rfl ok.ok (marked ▸ ok.outstanding) (marked ▸ ok.quiet)
  | tick =>
    apply nothing
    unfold Conn.step Conn.periodic at after
    dsimp only at after
    split_ifs at after
    obtain rfl := some.inj after
    exact ok.unqueued .tick rfl rfl ⟨ok.ok.balanced, ok.ok.exclusive⟩ ok.outstanding ok.quiet

/-- A connection is freed as its FIN is acknowledged, with all data before it, or torn down. -/
theorem TraceOk.freed {e : ConnEvent} (gone : t.conn.step e = none) :
    t.conn.TornDown e ∨ ∀ seg ∈ t.queue, Acknowledges e seg := by
  cases e with
  | segment h f base size =>
    have cleanup : (tcpSegment h (f.tcpHeader base) base size t.conn.ts).cleanup = true := by
      unfold Conn.step Conn.segment at gone
      dsimp only at gone
      split at gone
      · next cleanup => exact cleanup
      · cases gone
    rcases tcpSegment_closes cleanup with takes | torn
    · obtain ⟨freed, rest, parts, -, -, -, covered, last⟩ := tcpQueueAcked_frees (f.tcpHeader base) ok
      rw [(last h takes).2, append_nil] at parts
      exact .inr (parts ▸ covered)
    · exact .inl torn
  | poll send answer fits =>
    left
    unfold Conn.step Conn.event Conn.connected Conn.recv at gone
    dsimp only at gone
    split_ifs at gone with watched sends status full data closed failed
    · refine ⟨watched, ?_⟩
      rw [if_pos sends]
      exact eq_false_iff.mpr status
    · refine ⟨watched, ?_⟩
      rw [if_neg sends]
      exact ⟨not_lt.mp data, closed, failed⟩
  | tick =>
    left
    unfold Conn.step Conn.periodic at gone
    dsimp only at gone
    unfold Conn.TornDown
    split_ifs at gone with closed late
    · exact .inl closed
    · rcases late.2 with dead | opening
      · exact .inr (.inl dead)
      · exact .inr (.inr ⟨late.1, eq_false_iff.mpr opening⟩)
end

theorem Opened.ok (opened : Opened t) : TraceOk t := by
  cases opened with
  | outbound ts remote randomSeq seq window watch only =>
    have ok := Conn.outbound_ok watch.isSome ts remote randomSeq seq window
    refine ⟨⟨rfl, BitVec.sub_self _, trivial⟩, ok, fun _ => rfl, ?_, ?_⟩
    · exact nofun
    · exact Nat.zero_le _
  | inbound ts remote randomSeq =>
    refine ⟨⟨rfl, ?_, trivial⟩, Conn.inbound_ok ts remote randomSeq, ?_, ?_, ?_⟩
    · change randomSeq - (randomSeq - 1) = 1
      bv_omega
    · rintro (none | none) <;> cases none
    · exact nofun
    · exact Nat.zero_le _

end Invariant

/-- Over the life of a connection that is closed in order, the outstanding numbers are those of the queued
segments, and one more while a SYN or FIN is unacknowledged; the segments are consecutive, and are freed as the
guest acknowledges them. -/
theorem queue_balanced {t : TcpTrace} (opened : Opened t) (events : List ConnEvent)
    (orderly : AllSteps TcpTrace.step Orderly (some t) events) :
    (∀ s ∈ visited TcpTrace.step (some t) events, ∀ t ∈ s, QueueBalanced t) ∧
      AllSteps TcpTrace.step FreesAcknowledged (some t) events := by
  have keeps (s : Option TcpTrace) (e : ConnEvent) (ok : ∀ t ∈ s, TraceOk t) (orderly : Orderly s e) :
      ∀ t ∈ TcpTrace.step s e, TraceOk t := by
    intro t' member
    cases s with
    | none => cases member
    | some t =>
      obtain ⟨c, after, rfl⟩ := map_eq_some_iff.mp member
      exact ((ok t rfl).step orderly.1 after).1
  have start : ∀ s ∈ some t, TraceOk s := by
    intro s same
    obtain rfl := some.inj same
    exact opened.ok
  refine ⟨fun s member t inside => (invariant keeps start orderly s member t inside).toQueueBalanced, ?_⟩
  refine AllSteps.entails keeps ?_ start orderly
  intro s e ok orderly
  cases s with
  | none => trivial
  | some t =>
    show ∀ seg ∈ t.freed (t.conn.step e), Acknowledges e seg
    cases after : t.conn.step e with
    | some c => exact ((ok t rfl).step orderly.1 after).2
    | none => exact ((ok t rfl).freed after).elim orderly.2 id

/-- A peer that was accepted, with `0x1000` as the number after the SYN. -/
def acceptedPeer : TcpTrace where
  conn := .inbound ⟨0, Frame.ipv4 (fun _ => 0) 0, 0⟩ (Frame.ipv4 (fun _ => 0) 0) 0x1000
  queue := []
  marked := true

def guestHeader (seq ack : BitVec 32) (flags : BitVec 8) : ConnEvent :=
  .segment ⟨true, true, true, 0, fun _ => true, 0⟩
    (fun i => match i with
      | 4 => seq.extractLsb' 24 8
      | 5 => seq.extractLsb' 16 8
      | 6 => seq.extractLsb' 8 8
      | 7 => seq.extractLsb' 0 8
      | 8 => ack.extractLsb' 24 8
      | 9 => ack.extractLsb' 16 8
      | 10 => ack.extractLsb' 8 8
      | 11 => ack.extractLsb' 0 8
      | 12 => 0x50
      | 13 => flags
      | 14 => 0xFF
      | 15 => 0xFF
      | _ => 0) 0 20

def hostData : ConnEvent := .poll false ⟨true, 100⟩ (by decide)

def hostCloses : ConnEvent := .poll false ⟨true, netErrDisconnect⟩ (by decide)

/-- The peer sends 100 bytes and closes; the guest acknowledges them and closes too. -/
theorem queue_balanced_acceptedPeer :
    let events := [guestHeader 7 0x1000 0x12, hostData, hostCloses, guestHeader 8 0x1064 0x10,
      guestHeader 8 0x1065 0x11]
    Opened acceptedPeer ∧ final TcpTrace.step (some acceptedPeer) events = none ∧
    (∀ s ∈ visited TcpTrace.step (some acceptedPeer) events, ∀ t ∈ s, QueueBalanced t) ∧
      AllSteps TcpTrace.step FreesAcknowledged (some acceptedPeer) events := by
  intro events
  have orderly : AllSteps TcpTrace.step Orderly (some acceptedPeer) events := by decide +kernel
  have freed : (final TcpTrace.step (some acceptedPeer) events).isNone = true := by decide +kernel
  exact ⟨.inbound _ _ _, isNone_iff_eq_none.mp freed, queue_balanced (.inbound _ _ _) events orderly⟩

/-- The peer sends 100 bytes and closes, and the guest closes before it has seen them: its FIN frees the
connection with the bytes it never acknowledged. -/
theorem fin_frees_unacknowledged :
    let before := final TcpTrace.step (some acceptedPeer) [guestHeader 7 0x1000 0x12, hostData, hostCloses]
    let fin := guestHeader 8 0x1000 0x11
    before.map (fun t => (t.conn.ts.tcp.seqAck, t.conn.ts.tcp.segments)) = some (0x1000, [100]) ∧
      (TcpTrace.step before fin).isNone = true ∧ ¬ FreesAcknowledged before fin := by
  decide +kernel

end Rvvm.Tap
