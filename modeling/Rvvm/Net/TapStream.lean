import Rvvm.Net.TapQueue

/-! The guest's byte stream on an established TCP connection. A trace keeps the bytes the host
accepted, each with the sequence number the guest's segment gives it, and whether the guest's FIN was
taken. -/
namespace Rvvm.Tap
open BitVec List Runs
open Option hiding map_map
open BitVec (ofNat)

namespace TcpHeader
variable (hd : TcpHeader) (size : Nat)

/-- A SYN occupies the first sequence number of a segment. -/
def synLength : BitVec 32 := if has hd.flags tcpFlagSyn then 1 else 0

def numberAt (off : Nat) : BitVec 32 := hd.seq + hd.synLength + ofNat 32 off

def finNumber : BitVec 32 := hd.numberAt (size - hd.dataOff)

/-- The segment carries a SYN alone, if any, and its FIN is within the number space: the header lies
in the segment and the numbers of the payload do not wrap. -/
structure Plain : Prop where
  syn : has hd.flags tcpFlagSyn = true →
    has hd.flags tcpFlagFin = false ∧ ¬ (tcpHdrSize ≤ hd.dataOff ∧ hd.dataOff < size)
  fin : has hd.flags tcpFlagFin = true → hd.dataOff ≤ size ∧ hd.seq.toNat + (size - hd.dataOff) < 2 ^ 32

end TcpHeader

/-! The trace. -/

/-- The bytes of a call of `net_tcp_send` that the host accepts, with their numbers in the segment. -/
def acceptedBytes (h : HostNet) (f : Frame) (base : Nat) : TapEvent → List (BitVec 32 × Byte)
  | .netTcpSend _ off len =>
    (range (min h.tcpSend.toNat len)).map fun j =>
      ((f.tcpHeader base).numberAt (off + j - (base + (f.tcpHeader base).dataOff)), f (off + j))
  | _ => []

structure StreamTrace where
  conn : Conn
  accepted : List (BitVec 32 × Byte)
  finished : Bool

/-- What `handle_tcp` did with a segment. -/
def StreamTrace.log (t : StreamTrace) (h : HostNet) (f : Frame) (base size : Nat) : List TapEvent :=
  (tcpSegment h (f.tcpHeader base) base size t.conn.ts).events

def StreamTrace.after (t : StreamTrace) (e : ConnEvent) (c : Conn) : StreamTrace :=
  match e with
  | .segment h f base size =>
    { conn := c
      accepted := t.accepted ++ (t.log h f base size).flatMap (acceptedBytes h f base)
      finished := t.finished || decide (.netTcpShutdown t.conn.ts.sock ∈ t.log h f base size) }
  | _ => { t with conn := c }

/-- `none` once the connection is freed. -/
def StreamTrace.step : Option StreamTrace → ConnEvent → Option StreamTrace
  | none, _ => none
  | some t, e => (t.conn.step e).map (t.after e)

/-- An established connection on which the guest may send, before its first byte. -/
structure Established (isn : BitVec 32) (t : StreamTrace) : Prop where
  sending : tcpSending t.conn.ts.tcp = true
  connected : t.conn.watch ≠ some .send
  ack : t.conn.ts.tcp.ack = isn + 1
  nothing : t.accepted = []
  unfinished : t.finished = false

/-- The accepted bytes are numbered from the one after the SYN without repetition or gap, and
`tcp->ack` is the number expected next. -/
structure InOrder (isn : BitVec 32) (t : StreamTrace) : Prop where
  numbers : t.accepted.map Prod.fst = (range t.accepted.length).map fun i => isn + 1 + ofNat 32 i
  ack : t.conn.ts.tcp.ack = isn + 1 + ofNat 32 (t.accepted.length + t.finished.toNat)

/-- While the guest may send, its FIN is taken exactly when it is the number expected after the
data of the segment. -/
def FinExact (isn : BitVec 32) : Option StreamTrace → ConnEvent → Prop
  | some t, .segment h f base size =>
    tcpSending t.conn.ts.tcp = true →
      (.netTcpShutdown t.conn.ts.sock ∈ t.log h f base size ↔
        has (f.tcpHeader base).flags tcpFlagFin = true ∧
          (f.tcpHeader base).finNumber size = isn + 1 + ofNat 32
            (t.accepted.length + ((t.log h f base size).flatMap (acceptedBytes h f base)).length))
  | _, _ => True

/-- `net_tcp_send` accepts at most what it is given. -/
def SendsWithin : Option StreamTrace → ConnEvent → Prop
  | some t, .segment h f base size =>
    ∀ sock off len : Nat, .netTcpSend sock off len ∈ t.log h f base size → h.tcpSend ≤ (len : Int)
  | _, _ => True

def ConnEvent.Plain : ConnEvent → Prop
  | .segment _ f base size => (f.tcpHeader base).Plain size
  | _ => True

/-! A segment, phase by phase. -/

/-- The connection was established, and may have been reset since. -/
def Settled (state : BitVec 8) : Prop := has state tcpStateEstablished = true ∨ state = tcpStateClosed

theorem Settled.not_opening {state : BitVec 8} (settled : Settled state) :
    state ≠ tcpStateSendOpen ||| tcpStateRecvOpen ∧ state ≠ tcpStateRecvOpen := by
  revert settled
  unfold Settled
  revert state
  decide

section Phases
variable (h : HostNet) (hd : TcpHeader) (base size : Nat) {l : TcpStep}

/-- Acknowledgements leave the guest's stream alone on a connection that was established, and add
sockets to the poll set at most. -/
theorem tcpAckPhase_stream (settled : Settled l.ts.tcp.state) :
    (tcpAckPhase h hd.flags hd.seq hd.ack l).ts.tcp.state = l.ts.tcp.state ∧
    (tcpAckPhase h hd.flags hd.seq hd.ack l).ts.tcp.ack = l.ts.tcp.ack ∧
    (tcpAckPhase h hd.flags hd.seq hd.ack l).ts.sock = l.ts.sock ∧
    ∃ socks : List Nat, (tcpAckPhase h hd.flags hd.seq hd.ack l).events = l.events ++ socks.map .netPollAdd := by
  have window (l : TcpStep) : (tcpAckWindow h l).ts.tcp.state = l.ts.tcp.state ∧
      (tcpAckWindow h l).ts.tcp.ack = l.ts.tcp.ack ∧ (tcpAckWindow h l).ts.sock = l.ts.sock ∧
      ∃ socks : List Nat, (tcpAckWindow h l).events = l.events ++ socks.map .netPollAdd := by
    unfold tcpAckWindow
    split
    · exact ⟨rfl, rfl, rfl, [l.ts.sock], rfl⟩
    · exact ⟨rfl, rfl, rfl, [], (append_nil _).symm⟩
  have fin (l : TcpStep) : (tcpAckFin l).ts.tcp.state = l.ts.tcp.state ∧ (tcpAckFin l).ts.tcp.ack = l.ts.tcp.ack ∧
      (tcpAckFin l).ts.sock = l.ts.sock ∧ (tcpAckFin l).events = l.events := by
    unfold tcpAckFin
    split <;> exact ⟨rfl, rfl, rfl, rfl⟩
  have same (l : TcpStep) (settled : Settled l.ts.tcp.state) :
      tcpAckSyn h hd.flags hd.seq (tcpAckSynAck h (tcpAckFin l)) = tcpAckFin l := by
    obtain ⟨waits, opens⟩ := settled.not_opening
    rw [← (fin l).1] at waits opens
    rw [tcpAckSynAck, if_neg waits, tcpAckSyn, if_neg fun both => opens both.1]
  unfold tcpAckPhase
  dsimp only
  split
  · obtain ⟨state, ack, sock, socks, events⟩ := window (tcpAckQueue hd.ack l)
    split
    · rw [same _ (by rw [state]; exact settled)]
      obtain ⟨state', ack', sock', events'⟩ := fin (tcpAckWindow h (tcpAckQueue hd.ack l))
      exact ⟨state'.trans state, ack'.trans ack, sock'.trans sock, socks, events'.trans events⟩
    · exact ⟨state, ack, sock, socks, events⟩
  · exact ⟨rfl, rfl, rfl, [], (append_nil _).symm⟩

/-- The payload goes to the host from the number expected next. -/
def Sends (hd : TcpHeader) (size : Nat) (ack : BitVec 32) (state : BitVec 8) : Prop :=
  (has state tcpStateEstablished && has state tcpStateSendOpen) = true ∧
    tcpHdrSize ≤ hd.dataOff ∧ hd.dataOff < size ∧ (ack - hd.seq).toNat < size - hd.dataOff

instance (hd : TcpHeader) (size : Nat) (ack : BitVec 32) (state : BitVec 8) :
    Decidable (Sends hd size ack state) :=
  inferInstanceAs (Decidable (_ ∧ _ ∧ _ ∧ _))

def sendCall (hd : TcpHeader) (base size sock : Nat) (ack : BitVec 32) (state : BitVec 8) : List TapEvent :=
  if Sends hd size ack state then
    [.netTcpSend sock (base + hd.dataOff + (ack - hd.seq).toNat) (size - hd.dataOff - (ack - hd.seq).toNat)]
  else []

def ackAfterData (h : HostNet) (hd : TcpHeader) (size : Nat) (ack : BitVec 32) (state : BitVec 8) : BitVec 32 :=
  if Sends hd size ack state then ack + ofNat 32 h.tcpSend.toNat else ack

theorem tcpDataPhase_stream :
    (tcpDataPhase h base size hd.dataOff hd.seq l).ts.tcp.state = l.ts.tcp.state ∧
    (tcpDataPhase h base size hd.dataOff hd.seq l).ts.sock = l.ts.sock ∧
    (tcpDataPhase h base size hd.dataOff hd.seq l).ts.tcp.ack
    = ackAfterData h hd size l.ts.tcp.ack l.ts.tcp.state ∧
    (tcpDataPhase h base size hd.dataOff hd.seq l).events =
      l.events ++ sendCall hd base size l.ts.sock l.ts.tcp.ack l.ts.tcp.state := by
  unfold tcpDataPhase ackAfterData sendCall
  by_cases sending : tcpSending l.ts.tcp = true ∧ tcpHdrSize ≤ hd.dataOff ∧ hd.dataOff < size
  · rw [if_pos sending]
    by_cases fresh : (l.ts.tcp.ack - hd.seq).toNat < size - hd.dataOff
    · have all : Sends hd size l.ts.tcp.ack l.ts.tcp.state := ⟨sending.1, sending.2.1, sending.2.2, fresh⟩
      rw [if_pos fresh, if_pos all, if_pos all]
      by_cases accepts : 0 ≤ h.tcpSend
      · rw [if_pos accepts]
        refine ⟨rfl, rfl, ?_, rfl⟩
        have word : BitVec.ofInt 32 h.tcpSend = ofNat 32 h.tcpSend.toNat := by
          rw [← ofInt_natCast, Int.toNat_of_nonneg accepts]
        exact congrArg (l.ts.tcp.ack + ·) word
      · have none : h.tcpSend.toNat = 0 := Int.toNat_of_nonpos (not_le.mp accepts).le
        rw [none]
        split_ifs <;> exact ⟨rfl, rfl, (BitVec.add_zero _).symm, rfl⟩
    · have stale : ¬ Sends hd size l.ts.tcp.ack l.ts.tcp.state := fun all => fresh all.2.2.2
      rw [if_neg fresh, if_neg stale, if_neg stale]
      exact ⟨rfl, rfl, rfl, (append_nil _).symm⟩
  · have closed : ¬ Sends hd size l.ts.tcp.ack l.ts.tcp.state := fun all => sending ⟨all.1, all.2.1, all.2.2.1⟩
    rw [if_neg sending, if_neg closed, if_neg closed]
    exact ⟨rfl, rfl, rfl, (append_nil _).symm⟩

/-- The FIN is taken, by the comparison as the code makes it. -/
def TakesFin (hd : TcpHeader) (size : Nat) (ack : BitVec 32) (state : BitVec 8) : Prop :=
  has hd.flags tcpFlagFin = true ∧ (hd.seq.toNat + sizeSub size hd.dataOff) % 2 ^ 64 = ack.toNat ∧
    has state tcpStateSendOpen = true

instance (hd : TcpHeader) (size : Nat) (ack : BitVec 32) (state : BitVec 8) :
    Decidable (TakesFin hd size ack state) :=
  inferInstanceAs (Decidable (_ ∧ _ ∧ _))

theorem tcpFinPhase_stream :
    (tcpFinPhase hd.flags hd.seq size hd.dataOff l).ts.tcp.state =
      (if TakesFin hd size l.ts.tcp.ack l.ts.tcp.state then l.ts.tcp.state &&& ~~~ tcpStateSendOpen
        else l.ts.tcp.state) ∧
    (tcpFinPhase hd.flags hd.seq size hd.dataOff l).ts.tcp.ack =
      (if TakesFin hd size l.ts.tcp.ack l.ts.tcp.state then l.ts.tcp.ack + 1 else l.ts.tcp.ack) ∧
    (tcpFinPhase hd.flags hd.seq size hd.dataOff l).events =
      l.events ++ (if TakesFin hd size l.ts.tcp.ack l.ts.tcp.state then [.netTcpShutdown l.ts.sock] else []) := by
  unfold tcpFinPhase
  by_cases fin : has hd.flags tcpFlagFin = true ∧
      (hd.seq.toNat + sizeSub size hd.dataOff) % 2 ^ 64 = l.ts.tcp.ack.toNat
  · rw [if_pos fin]
    by_cases sending : has l.ts.tcp.state tcpStateSendOpen = true
    · have all : TakesFin hd size l.ts.tcp.ack l.ts.tcp.state := ⟨fin.1, fin.2, sending⟩
      rw [if_pos sending, if_pos all, if_pos all, if_pos all]
      exact ⟨rfl, rfl, rfl⟩
    · have closed : ¬ TakesFin hd size l.ts.tcp.ack l.ts.tcp.state := fun all => sending all.2.2
      rw [if_neg sending, if_neg closed, if_neg closed, if_neg closed]
      exact ⟨rfl, rfl, (append_nil _).symm⟩
  · have elsewhere : ¬ TakesFin hd size l.ts.tcp.ack l.ts.tcp.state := fun all => fin ⟨all.1, all.2.1⟩
    rw [if_neg fin, if_neg elsewhere, if_neg elsewhere, if_neg elsewhere]
    exact ⟨rfl, rfl, (append_nil _).symm⟩

theorem tcpReplyPhase_stream :
    ((tcpReplyPhase hd.flags l).ts.tcp.state = l.ts.tcp.state ∨
      (tcpReplyPhase hd.flags l).ts.tcp.state = tcpStateClosed) ∧
    (tcpReplyPhase hd.flags l).ts.tcp.ack = l.ts.tcp.ack ∧
    ∃ replies : List Reply, (tcpReplyPhase hd.flags l).events = l.events ++ replies.map .ethSend := by
  unfold tcpReplyPhase tapTcpSegment
  by_cases reset : l.reset = true
  · rw [if_pos reset]
    refine ⟨.inr rfl, rfl, ?_⟩
    split
    · exact ⟨[], (append_nil _).symm⟩
    · exact ⟨[_], rfl⟩
  · rw [if_neg reset]
    refine ⟨.inl ?_, ?_, ?_⟩
    · split <;> rfl
    · split <;> rfl
    · split
      · exact ⟨[_], rfl⟩
      · exact ⟨[], (append_nil _).symm⟩

theorem tcpSegment_stream {ts : TcpSock} (settled : Settled ts.tcp.state) {ack : BitVec 32}
    (data : ack = ackAfterData h hd size ts.tcp.ack ts.tcp.state) :
    ((tcpSegment h hd base size ts).ts.tcp.state =
        (if TakesFin hd size ack ts.tcp.state then ts.tcp.state &&& ~~~ tcpStateSendOpen else ts.tcp.state) ∨
      (tcpSegment h hd base size ts).ts.tcp.state = tcpStateClosed) ∧
    (tcpSegment h hd base size ts).ts.tcp.ack = (if TakesFin hd size ack ts.tcp.state then ack + 1 else ack) ∧
    ∃ (socks : List Nat) (replies : List Reply), (tcpSegment h hd base size ts).events =
      socks.map .netPollAdd ++ sendCall hd base size ts.sock ts.tcp.ack ts.tcp.state ++
        (if TakesFin hd size ack ts.tcp.state then [.netTcpShutdown ts.sock] else []) ++ replies.map .ethSend := by
  have start : Settled (tcpStart hd.flags hd.seq hd.window ts).ts.tcp.state := settled
  obtain ⟨state1, ack1, sock1, socks, events1⟩ := tcpAckPhase_stream h hd start
  unfold tcpSegment
  generalize tcpAckPhase h hd.flags hd.seq hd.ack (tcpStart hd.flags hd.seq hd.window ts) = acked at *
  obtain ⟨state2, sock2, ack2, events2⟩ := tcpDataPhase_stream h hd base size
  generalize tcpDataPhase h base size hd.dataOff hd.seq acked = sent at *
  obtain ⟨state3, ack3, events3⟩ := tcpFinPhase_stream hd size
  obtain ⟨state4, ack4, replies, events4⟩ := tcpReplyPhase_stream hd
  have sameState : sent.ts.tcp.state = ts.tcp.state := state2.trans state1
  have sameAck : sent.ts.tcp.ack = ack := by
    rw [ack2, ack1, state1, data]
    rfl
  have sameSock : sent.ts.sock = ts.sock := sock2.trans sock1
  rw [sameState, sameAck] at state3 ack3 events3
  refine ⟨?_, ack4.trans ack3, socks, replies, ?_⟩
  · rw [← state3]
    exact state4
  · rw [events4, events3, events2, events1, sameSock, sock1, ack1, state1]
    rfl

end Phases

/-! What the log of a segment says. -/

section Log
variable (h : HostNet) (f : Frame) (base size : Nat) {t : StreamTrace}

/-- The number expected once the payload was offered to the host. -/
def StreamTrace.expected (t : StreamTrace) (h : HostNet) (f : Frame) (base size : Nat) : BitVec 32 :=
  ackAfterData h (f.tcpHeader base) size t.conn.ts.tcp.ack t.conn.ts.tcp.state

section
variable (settled : Settled t.conn.ts.tcp.state)
include settled

theorem log_eq :
    ∃ (socks : List Nat) (replies : List Reply), t.log h f base size =
      socks.map .netPollAdd ++
        sendCall (f.tcpHeader base) base size t.conn.ts.sock t.conn.ts.tcp.ack t.conn.ts.tcp.state ++
        (if TakesFin (f.tcpHeader base) size (t.expected h f base size) t.conn.ts.tcp.state then
          [.netTcpShutdown t.conn.ts.sock] else []) ++ replies.map .ethSend :=
  (tcpSegment_stream h (f.tcpHeader base) base size settled rfl).2.2

theorem shutdown_mem_log :
    .netTcpShutdown t.conn.ts.sock ∈ t.log h f base size ↔
      TakesFin (f.tcpHeader base) size (t.expected h f base size) t.conn.ts.tcp.state := by
  obtain ⟨socks, replies, log⟩ := log_eq h f base size settled
  rw [log, sendCall]
  by_cases fin : TakesFin (f.tcpHeader base) size (t.expected h f base size) t.conn.ts.tcp.state
  · simp [fin]
  · split <;> simp [fin]

theorem log_accepted :
    (t.log h f base size).flatMap (acceptedBytes h f base) =
      (sendCall (f.tcpHeader base) base size t.conn.ts.sock t.conn.ts.tcp.ack t.conn.ts.tcp.state).flatMap
        (acceptedBytes h f base) := by
  obtain ⟨socks, replies, log⟩ := log_eq h f base size settled
  have polls : (socks.map TapEvent.netPollAdd).flatMap (acceptedBytes h f base) = [] := by
    rw [flatMap_map]
    exact flatMap_eq_nil_iff.mpr fun _ _ => rfl
  have frames : (replies.map TapEvent.ethSend).flatMap (acceptedBytes h f base) = [] := by
    rw [flatMap_map]
    exact flatMap_eq_nil_iff.mpr fun _ _ => rfl
  rw [log, flatMap_append, flatMap_append, flatMap_append, polls, frames, append_nil]
  split
  · exact append_nil _
  · exact append_nil _
end

end Log

structure StreamOk (isn : BitVec 32) (t : StreamTrace) : Prop extends InOrder isn t where
  settled : Settled t.conn.ts.tcp.state
  closed : t.finished = true → has t.conn.ts.tcp.state tcpStateSendOpen = false
  connected : t.conn.watch ≠ some .send

section Invariant
variable {isn : BitVec 32} {t : StreamTrace} {c : Conn} {h : HostNet} {f : Frame} {base size : Nat}

theorem StreamOk.unfinished (ok : StreamOk isn t) (opened : has t.conn.ts.tcp.state tcpStateSendOpen = true) :
    t.finished = false := by
  rw [Bool.eq_false_iff]
  intro finished
  rw [ok.closed finished] at opened
  cases opened

theorem sendCall_numbers (plain : (f.tcpHeader base).Plain size) (sock : Nat) {ack : BitVec 32} {state : BitVec 8}
    (sends : Sends (f.tcpHeader base) size ack state)
    (within : h.tcpSend ≤ ((size - (f.tcpHeader base).dataOff - (ack - (f.tcpHeader base).seq).toNat : Nat) : Int)) :
    ((sendCall (f.tcpHeader base) base size sock ack state).flatMap (acceptedBytes h f base)).map Prod.fst =
      (range h.tcpSend.toNat).map fun j => ack + ofNat 32 j := by
  have all : min h.tcpSend.toNat (size - (f.tcpHeader base).dataOff - (ack - (f.tcpHeader base).seq).toNat) =
      h.tcpSend.toNat := min_eq_left (Int.toNat_le.mpr within)
  have syn : (f.tcpHeader base).synLength = 0 := by
    unfold TcpHeader.synLength
    split
    next isSyn => exact absurd ⟨sends.2.1, sends.2.2.1⟩ (plain.syn isSyn).2
    next => rfl
  rw [sendCall, if_pos sends, flatMap_singleton, acceptedBytes, all, map_map]
  apply map_congr_left
  intro j _
  change (f.tcpHeader base).numberAt _ = _
  have offset : base + (f.tcpHeader base).dataOff + (ack - (f.tcpHeader base).seq).toNat + j -
      (base + (f.tcpHeader base).dataOff) = (ack - (f.tcpHeader base).seq).toNat + j := by omega
  rw [TcpHeader.numberAt, syn, offset, ofNat_add, ofNat_toNat]
  bv_omega

theorem sends_within (settled : Settled t.conn.ts.tcp.state)
    (sends : Sends (f.tcpHeader base) size t.conn.ts.tcp.ack t.conn.ts.tcp.state)
    (within : SendsWithin (some t) (.segment h f base size)) :
    h.tcpSend ≤ ((size - (f.tcpHeader base).dataOff -
      (t.conn.ts.tcp.ack - (f.tcpHeader base).seq).toNat : Nat) : Int) := by
  obtain ⟨socks, replies, log⟩ := log_eq h f base size settled
  apply within t.conn.ts.sock (base + (f.tcpHeader base).dataOff + (t.conn.ts.tcp.ack - (f.tcpHeader base).seq).toNat)
  rw [log, sendCall, if_pos sends]
  simp

theorem StreamOk.data (ok : StreamOk isn t) (plain : (f.tcpHeader base).Plain size)
    (within : SendsWithin (some t) (.segment h f base size)) :
    (t.accepted ++ (t.log h f base size).flatMap (acceptedBytes h f base)).map Prod.fst =
        (range (t.accepted ++ (t.log h f base size).flatMap (acceptedBytes h f base)).length).map
          (fun i => isn + 1 + ofNat 32 i) ∧
      t.expected h f base size = isn + 1 + ofNat 32
        ((t.accepted ++ (t.log h f base size).flatMap (acceptedBytes h f base)).length + t.finished.toNat) := by
  unfold StreamTrace.expected ackAfterData
  rw [log_accepted h f base size ok.settled]
  by_cases sends : Sends (f.tcpHeader base) size t.conn.ts.tcp.ack t.conn.ts.tcp.state
  · have unfinished := ok.unfinished (Bool.and_eq_true_iff.mp sends.1).2
    have ack : t.conn.ts.tcp.ack = isn + 1 + ofNat 32 t.accepted.length := by
      rw [ok.ack, unfinished]
      rfl
    have numbers := sendCall_numbers plain t.conn.ts.sock sends (sends_within ok.settled sends within)
    generalize (sendCall (f.tcpHeader base) base size t.conn.ts.sock t.conn.ts.tcp.ack t.conn.ts.tcp.state).flatMap
      (acceptedBytes h f base) = new at *
    have length : new.length = h.tcpSend.toNat := by
      rw [← length_map, numbers, length_map, length_range]
    rw [if_pos sends, map_append, length_append, length, ok.numbers, numbers, range_add,
      map_append,
      map_map, ack]
    refine ⟨congrArg _ (map_congr_left fun j _ => ?_), ?_⟩
    · change _ = isn + 1 + ofNat 32 (t.accepted.length + j)
      rw [ofNat_add, BitVec.add_assoc]
    · rw [unfinished, BitVec.add_assoc, ← ofNat_add]
      rfl
  · rw [if_neg sends, sendCall, if_neg sends, flatMap_nil, append_nil]
    exact ⟨ok.numbers, ok.ack⟩

theorem takesFin_iff (plain : (f.tcpHeader base).Plain size) {ack : BitVec 32} {state : BitVec 8}
    (sending : has state tcpStateSendOpen = true) :
    TakesFin (f.tcpHeader base) size ack state ↔
      has (f.tcpHeader base).flags tcpFlagFin = true ∧ (f.tcpHeader base).finNumber size = ack := by
  unfold TakesFin
  rw [and_iff_left sending]
  refine and_congr_right fun fin => ?_
  obtain ⟨inside, small⟩ := plain.fin fin
  have syn : (f.tcpHeader base).synLength = 0 := by
    unfold TcpHeader.synLength
    split
    next isSyn => exact absurd (fin.symm.trans (plain.syn isSyn).1) (by decide)
    next => rfl
  rw [TcpHeader.finNumber, TcpHeader.numberAt, sizeSub]
  generalize (f.tcpHeader base).dataOff = off at *
  constructor
  · intro same
    bv_omega
  · rintro rfl
    bv_omega

theorem StreamOk.finExact (ok : StreamOk isn t) (plain : (f.tcpHeader base).Plain size)
    (within : SendsWithin (some t) (.segment h f base size)) : FinExact isn (some t) (.segment h f base size) := by
  intro sending
  have opened := (Bool.and_eq_true_iff.mp sending).2
  have unfinished := ok.unfinished opened
  have expected := (ok.data plain within).2
  rw [unfinished] at expected
  rw [shutdown_mem_log h f base size ok.settled, takesFin_iff plain opened, expected, length_append]
  exact Iff.rfl

theorem has_clear_recvOpen (state : BitVec 8) :
    has (state &&& ~~~ tcpStateRecvOpen) tcpStateEstablished = has state tcpStateEstablished ∧
    has (state &&& ~~~ tcpStateRecvOpen) tcpStateSendOpen = has state tcpStateSendOpen := by
  revert state
  decide

section
variable (ok : StreamOk isn t)
include ok

theorem StreamOk.segment (plain : (f.tcpHeader base).Plain size)
    (within : SendsWithin (some t) (.segment h f base size))
    (after : t.conn.segment h (f.tcpHeader base) base size = some c) :
    StreamOk isn (t.after (.segment h f base size) c) := by
  have shape := Conn.eq_of_segment after
  have watch : c.watch ≠ some .send := by
    rw [shape, watchAfter]
    split
    · simp
    · exact ok.connected
  obtain ⟨state, ack, -⟩ :=
    tcpSegment_stream h (f.tcpHeader base) base size ok.settled (rfl : t.expected h f base size = _)
  obtain ⟨numbers, expected⟩ := ok.data plain within
  have taken := shutdown_mem_log h f base size ok.settled
  rw [show (tcpSegment h (f.tcpHeader base) base size t.conn.ts).ts = c.ts by rw [shape]] at state ack
  by_cases fin : TakesFin (f.tcpHeader base) size (t.expected h f base size) t.conn.ts.tcp.state
  · have unfinished := ok.unfinished fin.2.2
    have sendClosed : ∀ s : BitVec 8, has (s &&& ~~~ tcpStateSendOpen) tcpStateSendOpen = false := by decide
    rw [if_pos fin] at ack state
    rw [unfinished] at expected
    refine ⟨⟨numbers, ?_⟩, ?_, fun _ => ?_, watch⟩
    · dsimp only [StreamTrace.after]
      rw [ack, expected, decide_eq_true (taken.mpr fin), Bool.or_true, BitVec.add_assoc _ _ 1]
      exact congrArg (isn + 1 + ·) (ofNat_add _ 1).symm
    · rcases state with cleared | closed
      · refine ok.settled.imp (fun established => ?_) (fun reset => ?_)
        · change has c.ts.tcp.state _ = true
          rw [cleared, (has_clear_sendOpen _).1]
          exact established
        · have opened := fin.2.2
          rw [reset] at opened
          cases opened
      · exact .inr closed
    · change has c.ts.tcp.state _ = false
      rcases state with cleared | closed
      · rw [cleared]
        exact sendClosed _
      · rw [closed]
        decide
  · rw [if_neg fin] at ack state
    have finished : (t.after (.segment h f base size) c).finished = t.finished := by
      dsimp only [StreamTrace.after]
      rw [decide_eq_false (taken.not.mpr fin), Bool.or_false]
    refine ⟨⟨numbers, ?_⟩, ?_, ?_, watch⟩
    · rw [finished]
      exact ack.trans expected
    · rcases state with kept | closed
      · change Settled c.ts.tcp.state
        rw [kept]
        exact ok.settled
      · exact .inr closed
    · rw [finished]
      intro ended
      change has c.ts.tcp.state _ = false
      rcases state with kept | closed
      · rw [kept]
        exact ok.closed ended
      · rw [closed]
        decide

theorem StreamOk.quiet (ack : c.ts.tcp.ack = t.conn.ts.tcp.ack)
    (state : c.ts.tcp.state = t.conn.ts.tcp.state ∨ c.ts.tcp.state = t.conn.ts.tcp.state &&& ~~~ tcpStateRecvOpen)
    (watch : c.watch = none ∨ c.watch = t.conn.watch) : StreamOk isn { t with conn := c } := by
  refine ⟨⟨ok.numbers, ack.trans ok.ack⟩, ?_, ?_, ?_⟩
  · rcases state with same | cleared
    · exact same ▸ ok.settled
    · refine ok.settled.imp (fun established => ?_) (fun reset => ?_)
      · rw [cleared, (has_clear_recvOpen _).1]
        exact established
      · rw [cleared, reset]
        rfl
  · intro finished
    rcases state with same | cleared
    · rw [same]
      exact ok.closed finished
    · rw [cleared, (has_clear_recvOpen _).2]
      exact ok.closed finished
  · rcases watch with none | same
    · rw [none]
      exact fun sending => nomatch sending
    · rw [same]
      exact ok.connected

theorem StreamOk.recv {result : Int} (after : t.conn.recv result = some c) :
    StreamOk isn { t with conn := c } := by
  unfold Conn.recv at after
  split_ifs at after <;> obtain rfl := some.inj after
  · exact ok.quiet rfl (.inl rfl) (.inl rfl)
  · exact ok.quiet rfl (.inl rfl) (.inr rfl)
  · exact ok.quiet rfl (.inr rfl) (.inl rfl)
  · exact ok.quiet rfl (.inl rfl) (.inr rfl)

theorem StreamOk.step {e : ConnEvent} (plain : e.Plain) (within : SendsWithin (some t) e)
    (after : t.conn.step e = some c) : StreamOk isn (t.after e c) := by
  cases e with
  | segment h f base size => exact ok.segment plain within after
  | poll send answer fits =>
    unfold Conn.step at after
    dsimp only at after
    split at after
    · rw [decide_eq_false ok.connected, Bool.and_false, Conn.event, if_neg Bool.false_ne_true] at after
      exact ok.recv after
    · obtain rfl := some.inj after
      exact ok
  | tick =>
    unfold Conn.step Conn.periodic at after
    dsimp only at after
    split_ifs at after
    obtain rfl := some.inj after
    exact ok.quiet rfl (.inl rfl) (.inr rfl)
end

theorem Established.ok (established : Established isn t) : StreamOk isn t := by
  have sending := Bool.and_eq_true_iff.mp established.sending
  refine ⟨⟨?_, ?_⟩, .inl sending.1, ?_, established.connected⟩
  · rw [established.nothing]
    rfl
  · rw [established.ack, established.nothing, established.unfinished]
    exact (BitVec.add_zero _).symm
  · intro finished
    rw [established.unfinished] at finished
    cases finished

end Invariant

/-- On an established connection whose guest sends plain segments, in any order and however often,
the host gets the guest's bytes in order, `tcp->ack` is the number expected next, and the guest's FIN
is taken exactly at its place. -/
theorem stream_exact {isn : BitVec 32} {t : StreamTrace} (established : Established isn t)
    (events : List ConnEvent)
    (admitted : AllSteps StreamTrace.step (fun s e => e.Plain ∧ SendsWithin s e) (some t) events) :
    (∀ s ∈ visited StreamTrace.step (some t) events, ∀ t ∈ s, InOrder isn t) ∧
      AllSteps StreamTrace.step (FinExact isn) (some t) events := by
  have keeps (s : Option StreamTrace) (e : ConnEvent) (ok : ∀ t ∈ s, StreamOk isn t)
      (admits : e.Plain ∧ SendsWithin s e) : ∀ t ∈ StreamTrace.step s e, StreamOk isn t := by
    intro t' member
    cases s with
    | none => cases member
    | some t =>
      obtain ⟨c, after, rfl⟩ := map_eq_some_iff.mp member
      exact (ok t rfl).step admits.1 admits.2 after
  have start : ∀ s ∈ some t, StreamOk isn s := by
    intro s same
    obtain rfl := some.inj same
    exact established.ok
  refine ⟨fun s member t inside => (invariant keeps start admitted s member t inside).toInOrder, ?_⟩
  refine AllSteps.entails keeps ?_ start admitted
  intro s e ok admits
  cases s with
  | none => trivial
  | some t =>
    cases e with
    | segment h f base size => exact (ok t rfl).finExact admits.1 admits.2
    | poll send answer fits => trivial
    | tick => trivial

/-! A connection whose next number is `ack`. -/

def openStream (ack : BitVec 32) : StreamTrace where
  conn :=
    { ts := ⟨⟨0, Frame.ipv4 (fun _ => 0) 0, 0⟩, Frame.ipv4 (fun _ => 0) 0,
        ⟨[], 0x1000, ack, 0x1000, 0xFFFF, tcpStateEstablished ||| tcpStateSendOpen ||| tcpStateRecvOpen, false⟩⟩
      watch := some .recv }
  accepted := []
  finished := false

def lastFrame (seq : BitVec 32) : Frame := fun i =>
  match i with
  | 4 => seq.extractLsb' 24 8
  | 5 => seq.extractLsb' 16 8
  | 6 => seq.extractLsb' 8 8
  | 7 => seq.extractLsb' 0 8
  | 12 => 0x50
  | 13 => tcpFlagFin
  | 20 => 0x61
  | 21 => 0x62
  | 22 => 0x63
  | 23 => 0x64
  | _ => 0

def takesAll : HostNet := ⟨true, true, true, 4, fun _ => true, 0⟩

theorem openStream_established (isn : BitVec 32) : Established isn (openStream (isn + 1)) := by
  have sending : (has (tcpStateEstablished ||| tcpStateSendOpen ||| tcpStateRecvOpen) tcpStateEstablished &&
      has (tcpStateEstablished ||| tcpStateSendOpen ||| tcpStateRecvOpen) tcpStateSendOpen) = true := by decide
  exact ⟨sending, (fun none => nomatch none), rfl, rfl, rfl⟩

theorem within_of_log {t : StreamTrace} {f : Frame} {rest : List TapEvent}
    (log : t.log takesAll f 0 24 = .netTcpSend 0 20 4 :: rest)
    (once : ∀ sock off len, .netTcpSend sock off len ∉ rest) :
    SendsWithin (some t) (.segment takesAll f 0 24) := by
  intro sock off len member
  rw [log] at member
  rcases mem_cons.mp member with same | later
  · obtain ⟨-, -, rfl⟩ := TapEvent.netTcpSend.inj same
    decide
  · exact absurd later (once sock off len)

theorem stream_exact_openStream :
    Established 0xFF (openStream 0x100) ∧
    (∀ s ∈ visited StreamTrace.step (some (openStream 0x100)) [.segment takesAll (lastFrame 0x100) 0 24],
      ∀ t ∈ s, InOrder 0xFF t) ∧
    AllSteps StreamTrace.step (FinExact 0xFF) (some (openStream 0x100))
      [.segment takesAll (lastFrame 0x100) 0 24] := by
  have log : (openStream 0x100).log takesAll (lastFrame 0x100) 0 24 =
      [.netTcpSend 0 20 4, .netTcpShutdown 0, .ethSend (.tcp 0 tcpFlagAck 0x1000 0x105)] := by
    decide +kernel
  have plain : ((lastFrame 0x100).tcpHeader 0).Plain 24 :=
    ⟨nofun, fun _ => by decide⟩
  have within := within_of_log log (fun sock off len => by simp)
  exact ⟨openStream_established 0xFF, stream_exact (openStream_established 0xFF) _ ⟨⟨plain, within⟩, trivial⟩⟩

/-- A FIN whose data crosses the end of the number space is not taken, though its number is the
one expected after the data. -/
theorem fin_lost_at_wrap :
    Established 0xFFFFFFFD (openStream 0xFFFFFFFE) ∧
    SendsWithin (some (openStream 0xFFFFFFFE)) (.segment takesAll (lastFrame 0xFFFFFFFE) 0 24) ∧
    ¬ FinExact 0xFFFFFFFD (some (openStream 0xFFFFFFFE)) (.segment takesAll (lastFrame 0xFFFFFFFE) 0 24) ∧
    (final StreamTrace.step (some (openStream 0xFFFFFFFE)) [.segment takesAll (lastFrame 0xFFFFFFFE) 0 24]).map
        (fun t => (t.accepted.length, t.conn.ts.tcp.ack, t.finished)) = some (4, 2, false) ∧
    ((lastFrame 0xFFFFFFFE).tcpHeader 0).finNumber 24 = 2 := by
  have log : (openStream 0xFFFFFFFE).log takesAll (lastFrame 0xFFFFFFFE) 0 24 =
      [.netTcpSend 0 20 4, .ethSend (.tcp 0 tcpFlagAck 0x1000 2)] := by
    decide +kernel
  refine ⟨openStream_established 0xFFFFFFFD, within_of_log log (fun sock off len => by simp), ?_,
    by decide +kernel,
    by decide +kernel⟩
  intro exact
  have taken := (exact rfl).mpr (by
    decide +kernel)
  exact absurd taken (by decide)

end Rvvm.Tap
