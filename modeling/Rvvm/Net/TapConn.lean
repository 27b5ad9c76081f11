import Rvvm.Net.Tap

/-! One TCP connection of the user-mode network: what guest segments, events of the poll set and the
periodic tick do to it, and whether its socket is watched by the poll set. -/
namespace Rvvm.Tap
open Bool Option

/-- The fields `handle_tcp` reads from a segment. -/
structure TcpHeader where
  seq : BitVec 32
  ack : BitVec 32
  dataOff : Nat
  flags : BitVec 8
  window : BitVec 16

def Frame.tcpHeader (f : Frame) (base : Nat) : TcpHeader where
  seq := f.u32be (base + 4)
  ack := f.u32be (base + 8)
  dataOff := (f (base + 12)).toNat / 16 * 4
  flags := f (base + 13)
  window := f.u16be (base + 14)

inductive Watch where
  | send
  | recv
  deriving DecidableEq

structure Conn where
  ts : TcpSock
  watch : Option Watch

section Segment

variable (h : HostNet) (hd : TcpHeader)

def tcpSegment (base size : Nat) (ts : TcpSock) : TcpStep :=
  tcpReplyPhase hd.flags (tcpFinPhase hd.flags hd.seq size hd.dataOff
    (tcpDataPhase h base size hd.dataOff hd.seq
      (tcpAckPhase h hd.flags hd.seq hd.ack (tcpStart hd.flags hd.seq hd.window ts))))

theorem handleTcp_known {tap : TapDev} {f : Frame} {base size : Nat} {dst src : NetAddr} {ts : TcpSock}
    (found : tapTcpLookup tap { dst with port := f.u16be (base + 2) } { src with port := f.u16be base }
      = some ts) :
    (handleTcp h tap f base size dst src).1 =
      if (tcpSegment h (f.tcpHeader base) base size ts).cleanup then
        tapTcpRemove tap (tcpSegment h (f.tcpHeader base) base size ts).ts
      else tapTcpStore tap (tcpSegment h (f.tcpHeader base) base size ts).ts := by
  simp only [handleTcp, found]
  rfl

/-- The calls of `tap_tcp_arm_poll` that succeed, one for each place. -/
def tcpWindowArms (l : TcpStep) : Bool :=
  l.ts.tcp.winFull && has l.ts.tcp.state tcpStateRecvOpen && tcpWindowAvail l.ts.tcp && h.pollAdd 0

def tcpSynAckArms (l : TcpStep) : Bool :=
  decide (l.ts.tcp.state = tcpStateSendOpen ||| tcpStateRecvOpen) && h.pollAdd 1

def tcpSynArms (flags : BitVec 8) (l : TcpStep) : Bool :=
  decide (l.ts.tcp.state = tcpStateRecvOpen) && has flags tcpFlagSyn && h.pollAdd 2

/-- The guest acknowledges everything sent, and that is a single number past the freed segments. -/
def tcpAcksLast (ack : BitVec 32) (l : TcpStep) : Bool :=
  decide (l.ts.tcp.seq = l.ts.tcp.seqAck + 1 ∧ ack = l.ts.tcp.seq)

def tcpAckArms (l : TcpStep) : Bool :=
  has hd.flags tcpFlagAck &&
    (tcpWindowArms h (tcpAckQueue hd.ack l) ||
      (tcpAcksLast hd.ack (tcpAckWindow h (tcpAckQueue hd.ack l)) &&
        (tcpSynAckArms h (tcpAckFin (tcpAckWindow h (tcpAckQueue hd.ack l))) ||
          tcpSynArms h hd.flags (tcpAckSynAck h (tcpAckFin (tcpAckWindow h (tcpAckQueue hd.ack l)))))))

/-- Whether the socket is watched once the segment has been handled. -/
def watchAfter (c : Conn) : Option Watch :=
  if tcpAckArms h hd (tcpStart hd.flags hd.seq hd.window c.ts) then some .recv else c.watch

/-- The connection after a guest segment, `none` when it was freed. -/
def Conn.segment (base size : Nat) (c : Conn) : Option Conn :=
  let l := tcpSegment h hd base size c.ts
  if l.cleanup then none else some ⟨l.ts, watchAfter h hd c⟩

variable {h hd} in
theorem Conn.eq_of_segment {base size : Nat} {c c' : Conn} (after : c.segment h hd base size = some c') :
    c' = ⟨(tcpSegment h hd base size c.ts).ts, watchAfter h hd c⟩ := by
  unfold Conn.segment at after
  dsimp only at after
  split at after
  · cases after
  · exact (some.inj after).symm

end Segment

/-! The TAP thread. -/

def netErrDisconnect : Int := -3

/-- `tap_tcp_recv`, given the result of `net_tcp_recv`. -/
def Conn.recv (result : Int) (c : Conn) : Option Conn :=
  if !tcpWindowAvail c.ts.tcp then
    some ⟨{ c.ts with tcp := { c.ts.tcp with winFull := true } }, none⟩
  else if 0 < result then
    some { c with
      ts := { c.ts with
        tcp := { c.ts.tcp with
          segments := c.ts.tcp.segments ++ [result.toNat]
          seq := c.ts.tcp.seq + BitVec.ofInt 32 result } } }
  else if result = netErrDisconnect then
    some ⟨{ c.ts with
      tcp := { c.ts.tcp with
        state := c.ts.tcp.state &&& ~~~ tcpStateRecvOpen
        seq := c.ts.tcp.seq + 1 } }, none⟩
  else if result ≠ netErrBlock then none
  else some c

/-- The outcome of a connection attempt, by `net_tcp_status`. -/
def Conn.connected (status : Bool) (c : Conn) : Option Conn :=
  if status then
    some ⟨{ c.ts with
      tcp := { c.ts.tcp with
        state := c.ts.tcp.state ||| tcpStateRecvOpen
        seq := c.ts.tcp.seq + 1 } }, none⟩
  else none

def Conn.periodic (c : Conn) : Option Conn :=
  if c.ts.tcp.state = tcpStateClosed then none
  else
    let timeout := c.ts.timeout + 1
    if timeout > 50 ∧ (timeout > 300 ∨ ¬ has c.ts.tcp.state tcpStateEstablished) then none
    else some { c with ts := { c.ts with timeout } }

/-- What the host answers when an event of a connection is processed. -/
structure HostAnswer where
  status : Bool
  recv : Int

/-- An event of the poll set, with or without `NET_POLL_SEND`. -/
def Conn.event (send : Bool) (answer : HostAnswer) (c : Conn) : Option Conn :=
  if send then c.connected answer.status else c.recv answer.recv

def Conn.outbound (ts : TapSock) (remote : NetAddr) (randomSeq seq : BitVec 32) (window : BitVec 16) : Conn where
  ts := { ts with
    remote
    tcp := ⟨[], randomSeq, seq + 1, randomSeq, window, tcpStateSendOpen, false⟩ }
  watch := some .send

def Conn.inbound (ts : TapSock) (remote : NetAddr) (randomSeq : BitVec 32) : Conn where
  ts := { ts with
    remote
    tcp := ⟨[], randomSeq, 0, randomSeq - 1, 0, tcpStateRecvOpen, false⟩ }
  watch := none

/-! When a socket may be watched. -/

/-- Established connections are receiving, and no others. -/
def Balanced (tcp : TcpCtx) : Prop := has tcp.state tcpStateEstablished = has tcp.state tcpStateRecvOpen

/-- Watched sockets, and those taken out for a full window, are balanced. -/
structure WatchOk (watched : Bool) (tcp : TcpCtx) : Prop where
  balanced : watched = true ∨ tcp.winFull = true → Balanced tcp
  exclusive : watched = true → tcp.winFull = false

theorem WatchOk.unwatched {tcp : TcpCtx} (room : tcp.winFull = false) : WatchOk false tcp := by
  refine ⟨fun either => ?_, nofun⟩
  rcases either with is | full
  · cases is
  · exact nomatch room.symm.trans full

/-- The same in the middle of `handle_tcp`, where a connection bound to be freed is half closed. -/
structure StepOk (watched : Bool) (l : TcpStep) : Prop extends WatchOk watched l.ts.tcp where
  closing : l.cleanup = true → l.ts.tcp.state = tcpStateEstablished

section Phases

variable {watched : Bool} {l : TcpStep}

theorem not_balanced_established {tcp : TcpCtx} (state : tcp.state = tcpStateEstablished) : ¬ Balanced tcp := by
  rw [Balanced, state]
  decide

theorem StepOk.unwatched (ok : StepOk watched l) (unbalanced : ¬ Balanced l.ts.tcp) :
    watched = false ∧ l.ts.tcp.winFull = false := by
  constructor
  · exact eq_false_iff.mpr fun is => unbalanced (ok.balanced (.inl is))
  · exact eq_false_iff.mpr fun full => unbalanced (ok.balanced (.inr full))

theorem tcpAckWindow_ok (h : HostNet) (ok : StepOk watched l) :
    StepOk (watched || tcpWindowArms h l) (tcpAckWindow h l) := by
  by_cases opens : l.ts.tcp.winFull = true ∧ has l.ts.tcp.state tcpStateRecvOpen = true ∧
    tcpWindowAvail l.ts.tcp = true
  · rw [tcpAckWindow, if_pos opens]
    exact ⟨⟨fun _ => ok.balanced (.inr opens.1), fun _ => rfl⟩, ok.closing⟩
  · have silent : tcpWindowArms h l = false := by
      rw [eq_false_iff]
      intro arms
      simp only [tcpWindowArms, and_eq_true] at arms
      exact opens ⟨arms.1.1.1, arms.1.1.2, arms.1.2⟩
    rw [tcpAckWindow, if_neg opens, silent, Bool.or_false]
    exact ok

theorem tcpAckQueue_ok (ack : BitVec 32) (ok : StepOk watched l) : StepOk watched (tcpAckQueue ack l) :=
  ⟨⟨ok.balanced, ok.exclusive⟩, ok.closing⟩

theorem StepOk.closes (ok : StepOk watched l)
    (cleanup : (l.cleanup || decide (l.ts.tcp.state = tcpStateEstablished)) = true) :
    l.ts.tcp.state = tcpStateEstablished := by
  rcases or_eq_true_iff.mp cleanup with before | now
  · exact ok.closing before
  · exact of_decide_eq_true now

theorem tcpAckFin_ok (ok : StepOk watched l) : StepOk watched (tcpAckFin l) := by
  rw [tcpAckFin]
  split
  · exact ⟨⟨ok.balanced, ok.exclusive⟩, ok.closes⟩
  · exact ok

theorem StepOk.armed (ok : StepOk watched l) (unbalanced : ¬ Balanced l.ts.tcp)
    (opening : l.ts.tcp.state ≠ tcpStateEstablished) {added : Bool} {next : TcpStep}
    (full : next.ts.tcp.winFull = l.ts.tcp.winFull) (cleanup : next.cleanup = l.cleanup)
    (balanced : added = true → Balanced next.ts.tcp) : StepOk (watched || added) next := by
  obtain ⟨unwatched, room⟩ := ok.unwatched unbalanced
  rw [unwatched]
  refine ⟨⟨fun either => ?_, fun _ => full.trans room⟩, fun cleans => ?_⟩
  · rcases either with is | is
    · exact balanced is
    · exact nomatch (full.trans room).symm.trans is
  · exact absurd (ok.closing (cleanup.symm.trans cleans)) opening

theorem tcpAckSynAck_ok (h : HostNet) (ok : StepOk watched l) :
    StepOk (watched || tcpSynAckArms h l) (tcpAckSynAck h l) := by
  by_cases waits : l.ts.tcp.state = tcpStateSendOpen ||| tcpStateRecvOpen
  · rw [tcpAckSynAck, if_pos waits, tcpSynAckArms, decide_eq_true waits, Bool.true_and]
    refine ok.armed (by rw [Balanced, waits]; decide) (by rw [waits]; decide) ?_ ?_ fun added => ?_
    · split <;> rfl
    · split <;> rfl
    · rw [if_pos added]
      dsimp only [Balanced]
      rw [waits]
      decide
  · have silent : tcpSynAckArms h l = false := by
      rw [tcpSynAckArms, decide_eq_false waits, Bool.false_and]
    rw [tcpAckSynAck, if_neg waits, silent, Bool.or_false]
    exact ok

theorem tcpAckSyn_ok (h : HostNet) {flags : BitVec 8} {seq : BitVec 32} (ok : StepOk watched l) :
    StepOk (watched || tcpSynArms h flags l) (tcpAckSyn h flags seq l) := by
  by_cases accepts : l.ts.tcp.state = tcpStateRecvOpen ∧ has flags tcpFlagSyn = true
  · obtain ⟨opening, syn⟩ := accepts
    rw [tcpAckSyn, if_pos ⟨opening, syn⟩, tcpSynArms, decide_eq_true opening, syn, Bool.true_and, Bool.true_and]
    refine ok.armed (by rw [Balanced, opening]; decide) (by rw [opening]; decide) ?_ ?_ fun added => ?_
    · split <;> rfl
    · split <;> rfl
    · rw [if_pos added]
      dsimp only [Balanced]
      rw [opening]
      decide
  · have silent : tcpSynArms h flags l = false := by
      rw [eq_false_iff]
      intro arms
      simp only [tcpSynArms, and_eq_true, decide_eq_true_eq] at arms
      exact accepts arms.1
    rw [tcpAckSyn, if_neg accepts, silent, Bool.or_false]
    exact ok

theorem tcpAckPhase_ok (h : HostNet) (hd : TcpHeader) (ok : StepOk watched l) :
    StepOk (watched || tcpAckArms h hd l) (tcpAckPhase h hd.flags hd.seq hd.ack l) := by
  rw [tcpAckPhase, tcpAckArms]
  by_cases acks : has hd.flags tcpFlagAck = true
  · have window := tcpAckWindow_ok h (tcpAckQueue_ok hd.ack ok)
    rw [acks, Bool.true_and, ← Bool.or_assoc]
    by_cases last : tcpAcksLast hd.ack (tcpAckWindow h (tcpAckQueue hd.ack l)) = true
    · rw [if_pos (of_decide_eq_true last), last, Bool.true_and, ← Bool.or_assoc]
      exact tcpAckSyn_ok h (tcpAckSynAck_ok h (tcpAckFin_ok window))
    · rw [if_neg (of_decide_eq_false (eq_false_iff.mpr last)), eq_false_iff.mpr last, Bool.false_and,
        Bool.or_false]
      exact window
  · rw [if_neg acks, eq_false_iff.mpr acks, Bool.false_and, Bool.or_false]
    exact ok

theorem tcpDataPhase_ok (h : HostNet) (base size dataOff : Nat) (seq : BitVec 32) (ok : StepOk watched l) :
    StepOk watched (tcpDataPhase h base size dataOff seq l) := by
  unfold tcpDataPhase
  dsimp only
  split_ifs <;> exact ⟨⟨ok.balanced, ok.exclusive⟩, ok.closing⟩

theorem has_clear_sendOpen (s : BitVec 8) :
    has (s &&& ~~~ tcpStateSendOpen) tcpStateEstablished = has s tcpStateEstablished ∧
    has (s &&& ~~~ tcpStateSendOpen) tcpStateRecvOpen = has s tcpStateRecvOpen := by
  revert s
  decide

theorem tcpFinPhase_ok (flags : BitVec 8) (seq : BitVec 32) (size dataOff : Nat) (ok : StepOk watched l) :
    StepOk watched (tcpFinPhase flags seq size dataOff l) := by
  unfold tcpFinPhase
  split
  · split
    · rename_i sending
      have kept : l.cleanup = false := eq_false_iff.mpr fun cleanup => by
        rw [ok.closing cleanup] at sending
        cases sending
      refine ⟨⟨fun either => ?_, ok.exclusive⟩, ?_⟩
      · have before := ok.balanced either
        obtain ⟨established, receiving⟩ := has_clear_sendOpen l.ts.tcp.state
        dsimp only [Balanced] at before ⊢
        rw [established, receiving]
        exact before
      · intro cleanup
        rw [kept] at cleanup
        exact of_decide_eq_true cleanup
    · exact ⟨⟨ok.balanced, ok.exclusive⟩, ok.closes⟩
  · exact ok

theorem tcpReplyPhase_ok (flags : BitVec 8) (ok : StepOk watched l) :
    WatchOk watched (tcpReplyPhase flags l).ts.tcp ∧
      ((tcpReplyPhase flags l).cleanup = true → watched = false) := by
  have unwatched (cleanup : l.cleanup = true) : watched = false :=
    (ok.unwatched (not_balanced_established (ok.closing cleanup))).1
  by_cases reset : l.reset = true
  · rw [tcpReplyPhase, if_pos reset]
    refine ⟨⟨fun _ => ?_, ok.exclusive⟩, ?_⟩
    · exact (by decide : has tcpStateClosed tcpStateEstablished = has tcpStateClosed tcpStateRecvOpen)
    · intro cleanup
      rcases or_eq_true_iff.mp cleanup with before | now
      · exact unwatched before
      · refine (ok.unwatched fun balanced => ?_).1
        rw [balanced, bne_self_eq_false] at now
        cases now
  · rw [tcpReplyPhase, if_neg reset]
    split
    · exact ⟨⟨ok.balanced, ok.exclusive⟩, unwatched⟩
    · exact ⟨ok.toWatchOk, unwatched⟩

end Phases

/-! Every event keeps a connection in that shape, and only unwatched ones are freed by a segment. -/

def Conn.Ok (c : Conn) : Prop := WatchOk c.watch.isSome c.ts.tcp

section Events

variable {h : HostNet} {hd : TcpHeader} {c c' : Conn}

theorem Conn.Ok.start (ok : c.Ok) (hd : TcpHeader) :
    StepOk c.watch.isSome (tcpStart hd.flags hd.seq hd.window c.ts) :=
  ⟨⟨ok.balanced, ok.exclusive⟩, nofun⟩

theorem tcpSegment_ok (h : HostNet) (hd : TcpHeader) (base size : Nat) (ok : c.Ok) :
    WatchOk (watchAfter h hd c).isSome (tcpSegment h hd base size c.ts).ts.tcp ∧
      ((tcpSegment h hd base size c.ts).cleanup = true → watchAfter h hd c = none) := by
  have watch : (c.watch.isSome || tcpAckArms h hd (tcpStart hd.flags hd.seq hd.window c.ts)) =
      (watchAfter h hd c).isSome := by
    rw [watchAfter]
    split
    · rename_i arms
      rw [arms, Bool.or_true, isSome_some]
    · rename_i idle
      rw [eq_false_iff.mpr idle, Bool.or_false]
  have reply := tcpReplyPhase_ok hd.flags (tcpFinPhase_ok hd.flags hd.seq size hd.dataOff
    (tcpDataPhase_ok h base size hd.dataOff hd.seq (tcpAckPhase_ok h hd (ok.start hd))))
  rw [watch] at reply
  refine ⟨reply.1, fun cleanup => ?_⟩
  have unwatched := reply.2 cleanup
  rw [isSome_eq_false_iff, isNone_iff_eq_none] at unwatched
  exact unwatched

theorem Conn.recv_ok {result : Int} (ok : c.Ok) (watched : c.watch.isSome = true)
    (after : c.recv result = some c') : c'.Ok := by
  have room := ok.exclusive watched
  rw [Conn.recv] at after
  split_ifs at after
  · cases after
    exact ⟨fun _ => ok.balanced (.inl watched), nofun⟩
  · cases after
    exact ⟨ok.balanced, ok.exclusive⟩
  · cases after
    exact .unwatched room
  · cases after
    exact ok

theorem Conn.connected_ok {status : Bool} (ok : c.Ok) (watched : c.watch.isSome = true)
    (after : c.connected status = some c') : c'.Ok := by
  have room := ok.exclusive watched
  rw [Conn.connected] at after
  split_ifs at after
  cases after
  exact .unwatched room

theorem Conn.event_ok {send : Bool} {answer : HostAnswer} (ok : c.Ok) (watched : c.watch.isSome = true)
    (after : c.event send answer = some c') : c'.Ok := by
  rw [Conn.event] at after
  split at after
  · exact Conn.connected_ok ok watched after
  · exact Conn.recv_ok ok watched after

theorem tcpAckArms_unwatched {watched : Bool} {l : TcpStep} (ok : StepOk watched l)
    (arms : tcpAckArms h hd l = true) :
    watched = false := by
  have queue := tcpAckQueue_ok hd.ack ok
  have fin := tcpAckFin_ok (tcpAckWindow_ok h queue)
  have synAck := tcpAckSynAck_ok h fin
  rw [tcpAckArms, and_eq_true, or_eq_true, and_eq_true, or_eq_true] at arms
  rcases arms.2 with window | ⟨_, answered | accepted⟩
  · rw [eq_false_iff]
    intro is
    simp only [tcpWindowArms, and_eq_true] at window
    exact absurd (window.1.1.1.symm.trans (queue.exclusive is)) (by decide)
  · rw [tcpSynAckArms, and_eq_true, decide_eq_true_eq] at answered
    refine (or_eq_false_iff.mp (fin.unwatched ?_).1).1
    rw [Balanced, answered.1]
    decide
  · rw [tcpSynArms, and_eq_true, and_eq_true, decide_eq_true_eq] at accepted
    refine (or_eq_false_iff.mp (or_eq_false_iff.mp (synAck.unwatched ?_).1).1).1
    rw [Balanced, accepted.1.1]
    decide

theorem Conn.arms_unwatched (ok : c.Ok)
    (arms : tcpAckArms h hd (tcpStart hd.flags hd.seq hd.window c.ts) = true) : c.watch = none := by
  have unwatched := tcpAckArms_unwatched (ok.start hd) arms
  rw [isSome_eq_false_iff, isNone_iff_eq_none] at unwatched
  exact unwatched

theorem Conn.event_watch {send : Bool} {answer : HostAnswer} (after : c.event send answer = some c') :
    c'.watch = none ∨ c'.watch = c.watch := by
  rw [Conn.event, Conn.connected, Conn.recv] at after
  split_ifs at after <;> cases after <;> simp

end Events

theorem Conn.outbound_ok (watched : Bool) (ts : TapSock) (remote : NetAddr) (randomSeq seq : BitVec 32)
    (window : BitVec 16) : WatchOk watched (Conn.outbound ts remote randomSeq seq window).ts.tcp :=
  ⟨fun _ => (by decide : has tcpStateSendOpen tcpStateEstablished = has tcpStateSendOpen tcpStateRecvOpen),
    fun _ => rfl⟩

theorem Conn.inbound_ok (ts : TapSock) (remote : NetAddr) (randomSeq : BitVec 32) :
    WatchOk false (Conn.inbound ts remote randomSeq).ts.tcp := .unwatched rfl

/-! The socket and the addresses of a connection never change. -/

def TcpSock.SameSock (ts ts' : TcpSock) : Prop :=
  ts'.sock = ts.sock ∧ ts'.addr = ts.addr ∧ ts'.remote = ts.remote

/-- After its start a segment writes the timeout and `tcp` only, and leaves the window alone. -/
theorem tcpSegment_kept {α : Type} (p : TcpSock → α) (h : HostNet) (hd : TcpHeader) (base size : Nat) (ts : TcpSock)
    (kept : ∀ (ts : TcpSock) timeout tcp, tcp.window = ts.tcp.window → p { ts with timeout, tcp } = p ts) :
    p (tcpSegment h hd base size ts).ts = p (tcpStart hd.flags hd.seq hd.window ts).ts := by
  have window (l : TcpStep) : p (tcpAckWindow h l).ts = p l.ts := by
    rw [tcpAckWindow]
    split_ifs <;> exact kept _ _ _ rfl
  have fin (l : TcpStep) : p (tcpAckFin l).ts = p l.ts := by
    rw [tcpAckFin]
    split_ifs <;> exact kept _ _ _ rfl
  have synAck (l : TcpStep) : p (tcpAckSynAck h l).ts = p l.ts := by
    unfold tcpAckSynAck
    split_ifs <;> exact kept _ _ _ rfl
  have syn (l : TcpStep) : p (tcpAckSyn h hd.flags hd.seq l).ts = p l.ts := by
    unfold tcpAckSyn
    split_ifs <;> exact kept _ _ _ rfl
  have queue (l : TcpStep) : p (tcpAckQueue hd.ack l).ts = p l.ts := kept _ _ _ rfl
  have acks (l : TcpStep) : p (tcpAckPhase h hd.flags hd.seq hd.ack l).ts = p l.ts := by
    unfold tcpAckPhase
    dsimp only
    split_ifs
    · rw [syn, synAck, fin, window, queue]
    · rw [window, queue]
    · rfl
  have data (l : TcpStep) : p (tcpDataPhase h base size hd.dataOff hd.seq l).ts = p l.ts := by
    unfold tcpDataPhase
    dsimp only
    split_ifs <;> exact kept _ _ _ rfl
  have finish (l : TcpStep) : p (tcpFinPhase hd.flags hd.seq size hd.dataOff l).ts = p l.ts := by
    unfold tcpFinPhase
    split_ifs <;> exact kept _ _ _ rfl
  have reply (l : TcpStep) : p (tcpReplyPhase hd.flags l).ts = p l.ts := by
    unfold tcpReplyPhase
    split_ifs <;> exact kept _ _ _ rfl
  rw [tcpSegment, reply, finish, data, acks]

theorem tcpSegment_sameSock (h : HostNet) (hd : TcpHeader) (base size : Nat) (ts : TcpSock) :
    ts.SameSock (tcpSegment h hd base size ts).ts := by
  have same := tcpSegment_kept (fun ts => (ts.sock, ts.addr, ts.remote)) h hd base size ts fun _ _ _ _ => rfl
  rw [Prod.mk.injEq, Prod.mk.injEq] at same
  exact same

theorem Conn.event_sameSock {send : Bool} {answer : HostAnswer} {c c' : Conn}
    (after : c.event send answer = some c') : c.ts.SameSock c'.ts := by
  rw [Conn.event, Conn.connected, Conn.recv] at after
  split_ifs at after <;> cases after <;> exact ⟨rfl, rfl, rfl⟩

end Rvvm.Tap
