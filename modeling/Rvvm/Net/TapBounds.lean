import Rvvm.Net.TapEvents

/-! Bounds of frame parsing: when every byte that the handlers read, copy or hand to the
host lies inside the frame. -/
namespace Rvvm.Tap
open List Nat

def Spans (off len n : Nat) : Prop := ∀ k < len, off + k < n

theorem spans_iff {off len n : Nat} : Spans off len n ↔ len = 0 ∨ off + len ≤ n := by
  constructor
  · intro all
    rcases Nat.eq_zero_or_pos len with empty | positive
    · exact .inl empty
    · have last := all (len - 1) (by omega)
      exact .inr (by omega)
  · intro fits k inside
    omega

theorem spans_of_le {off len n : Nat} (fits : off + len ≤ n) : Spans off len n :=
  spans_iff.mpr (.inr fits)

def TapEvent.Inside (n : Nat) : TapEvent → Prop
  | .read off len => Spans off len n
  | .netTcpSend _ off len => Spans off len n
  | .netUdpSend _ off len _ => Spans off len n
  | .netIcmpSend _ off len _ => Spans off len n
  | .ethSend (.icmp off len) => Spans off len n
  | .ethSend (.arp target) => Spans target 4 n
  | _ => True

theorem Silent.inside {e : TapEvent} (silent : Silent e) (n : Nat) : e.Inside n := by
  cases silent <;> trivial

theorem inside_read {off len n : Nat} (positive : 0 < len) :
    (TapEvent.read off len).Inside n ↔ off + len ≤ n := by
  rw [TapEvent.Inside, spans_iff]
  omega

/-- The position of the `k`-th DHCP option from position `i`, by the options' own
length bytes. -/
def dhcpOption (f : Frame) (base i : Nat) : Nat → Nat
  | 0 => i
  | k + 1 => dhcpOption f base (i + 2 + (f (base + i + 1)).toNat) k

theorem le_dhcpOption (f : Frame) (base i k : Nat) : i ≤ dhcpOption f base i k := by
  induction k generalizing i with
  | zero => exact le_rfl
  | succ k ih => exact le_trans (by omega) (ih _)

/-- Each option up to the message type, as far as the datagram's size admits it, has its
inspected bytes inside the frame: type and length, or all three of the message type. -/
def OptionsInside (f : Frame) (base size n i : Nat) : Prop :=
  ∀ k, (∀ j < k, f (base + dhcpOption f base i j) ≠ dhcpMsgTypeOption) →
    dhcpOption f base i k + 2 < size →
    base + dhcpOption f base i k +
      (if f (base + dhcpOption f base i k) = dhcpMsgTypeOption then 3 else 2) ≤ n

variable {f : Frame} {base size n i : Nat}

theorem optionsInside_outside (outside : ¬ i + 2 < size) :
    OptionsInside f base size n i := by
  intro k _ inside
  have after := le_dhcpOption f base i k
  omega

theorem optionsInside_found (inside : i + 2 < size)
    (found : f (base + i) = dhcpMsgTypeOption) :
    OptionsInside f base size n i ↔ base + i + 3 ≤ n := by
  constructor
  · intro all
    have first := all 0 (fun j below => absurd below (not_lt_zero j)) inside
    simpa [dhcpOption, found] using first
  · intro fits k before _
    cases k with
    | zero => simpa [dhcpOption, found] using fits
    | succ k => exact absurd found (before 0 (succ_pos k))

theorem optionsInside_next (inside : i + 2 < size)
    (other : f (base + i) ≠ dhcpMsgTypeOption) :
    OptionsInside f base size n i ↔
      base + i + 2 ≤ n ∧ OptionsInside f base size n (i + 2 + (f (base + i + 1)).toNat) := by
  constructor
  · intro all
    have first := all 0 (fun j below => absurd below (not_lt_zero j)) inside
    refine ⟨by simpa [dhcpOption, other] using first, fun k before => all (k + 1) ?_⟩
    intro j below
    cases j with
    | zero => exact other
    | succ j => exact before j (lt_of_succ_lt_succ below)
  · rintro ⟨fits, rest⟩ k before within
    cases k with
    | zero => simpa [dhcpOption, other] using fits
    | succ k => exact rest k (fun j below => before (j + 1) (succ_lt_succ below)) within

theorem dhcpScan_inside_iff (f : Frame) (base size n i : Nat) :
    (∀ e ∈ (dhcpScan f base size i).2, e.Inside n) ↔ OptionsInside f base size n i := by
  induction i using dhcpScan.induct f base size with
  | case1 i inside found =>
    rw [dhcpScan, if_pos inside, if_pos found, optionsInside_found inside found]
    simp only [forall_mem_cons, not_mem_nil, false_imp_iff, implies_true, and_true,
      inside_read one_pos]
    omega
  | case2 i inside other ih =>
    rw [dhcpScan, if_pos inside, if_neg other, optionsInside_next inside other, ← ih]
    simp only [forall_mem_cons, inside_read one_pos]
    constructor
    · exact fun all => ⟨by omega, all.2.2⟩
    · exact fun both => ⟨by omega, by omega, both.2⟩
  | case3 i outside =>
    rw [dhcpScan, if_neg outside]
    exact iff_of_true (forall_mem_nil _) (optionsInside_outside outside)

theorem dhcpScan_outside {base size i : Nat} (outside : ¬ i + 2 < size) :
    (dhcpScan f base size i).1 = dhcpEndmark := by
  rw [dhcpScan, if_neg outside]

theorem handleDhcp_inside_iff (f : Frame) (base size n : Nat) :
    (∀ e ∈ handleDhcp f base size, e.Inside n) ↔ OptionsInside f base size n 240 := by
  unfold handleDhcp
  dsimp only
  split_ifs with short ended
  · exact iff_of_true (forall_mem_nil _) (optionsInside_outside (by omega))
  · exact dhcpScan_inside_iff f base size n 240
  · rw [forall_mem_append, dhcpScan_inside_iff]
    refine and_iff_left_of_imp fun options => ?_
    have inside : 240 + 2 < size := by
      by_contra outside
      exact ended (dhcpScan_outside outside)
    have first := options 0 (fun j below => absurd below (not_lt_zero j)) inside
    have header : base + 240 ≤ n := by
      simp only [dhcpOption] at first
      omega
    simp only [forall_mem_cons, not_mem_nil, false_imp_iff, implies_true, and_true]
    exact ⟨spans_of_le (by omega), spans_of_le (by omega), spans_of_le (by omega), trivial⟩

theorem udpReads_inside_iff (base n : Nat) :
    (∀ e ∈ udpReads base, e.Inside n) ↔ base + 6 ≤ n := by
  simp only [udpReads, forall_mem_cons, not_mem_nil, false_imp_iff, implies_true, and_true,
    inside_read two_pos]
  omega

theorem tcpReads_inside_iff (base n : Nat) :
    (∀ e ∈ tcpReads base, e.Inside n) ↔ base + 16 ≤ n := by
  simp only [tcpReads, forall_mem_cons, not_mem_nil, false_imp_iff, implies_true, and_true,
    inside_read one_pos, inside_read two_pos, inside_read (succ_pos 3)]
  omega

/-- The guest's sending side is open, or the segment's acknowledgement opens it and the
host accepts the socket into its poll set. -/
def TcpOpens (h : HostNet) (f : Frame) (ts : TcpSock) : Prop :=
  tcpSending ts.tcp = true ∨
    has f.tcpFlags tcpFlagAck = true ∧ f.tcpAck = ts.tcp.seq ∧
      ts.tcp.seq = (tcpFreeAcked f.tcpAck ts.tcp.segments ts.tcp.seqAck).2 + 1 ∧
      (ts.tcp.state = tcpStateSendOpen ||| tcpStateRecvOpen ∧ h.pollAdd 1 = true ∨
        ts.tcp.state = tcpStateRecvOpen ∧ has f.tcpFlags tcpFlagSyn = true ∧ h.pollAdd 2 = true)

theorem tcpAckWindow_tcp (h : HostNet) (l : TcpStep) :
    (tcpAckWindow h l).ts.tcp = { l.ts.tcp with winFull := (tcpAckWindow h l).ts.tcp.winFull } := by
  unfold tcpAckWindow
  split_ifs <;> rfl

theorem tcpAckFin_state (l : TcpStep) : (tcpAckFin l).ts.tcp.state = l.ts.tcp.state := by
  unfold tcpAckFin
  split_ifs <;> rfl

theorem tcpAckSynAck_state (h : HostNet) (l : TcpStep) :
    (tcpAckSynAck h l).ts.tcp.state =
      if l.ts.tcp.state = tcpStateSendOpen ||| tcpStateRecvOpen ∧ h.pollAdd 1 = true then
        l.ts.tcp.state ||| tcpStateEstablished
      else l.ts.tcp.state := by
  rw [tcpAckSynAck, ite_and]
  split_ifs <;> rfl

theorem tcpAckSyn_state (h : HostNet) (flags : BitVec 8) (seq : BitVec 32) (l : TcpStep) :
    (tcpAckSyn h flags seq l).ts.tcp.state =
      if (l.ts.tcp.state = tcpStateRecvOpen ∧ has flags tcpFlagSyn = true) ∧ h.pollAdd 2 = true then
        l.ts.tcp.state ||| (tcpStateSendOpen ||| tcpStateEstablished)
      else l.ts.tcp.state := by
  rw [tcpAckSyn, ite_and _ (h.pollAdd 2 = true)]
  split_ifs <;> rfl

theorem tcpSending_opened (tcp : TcpCtx) (h : HostNet) (flags : BitVec 8) (seq : BitVec 32)
    (l : TcpStep) (same : l.ts.tcp.state = tcp.state) :
    tcpSending (tcpAckSyn h flags seq (tcpAckSynAck h l)).ts.tcp = true ↔
      tcpSending tcp = true ∨
        (tcp.state = tcpStateSendOpen ||| tcpStateRecvOpen ∧ h.pollAdd 1 = true ∨
          tcp.state = tcpStateRecvOpen ∧ has flags tcpFlagSyn = true ∧ h.pollAdd 2 = true) := by
  rw [tcpSending, tcpSending, tcpAckSyn_state, tcpAckSynAck_state, same]
  by_cases opening : tcp.state = tcpStateSendOpen ||| tcpStateRecvOpen
  · have other : tcpStateSendOpen ||| tcpStateRecvOpen ≠ tcpStateRecvOpen := by decide
    have after : (tcpStateSendOpen ||| tcpStateRecvOpen) ||| tcpStateEstablished ≠
        tcpStateRecvOpen := by decide
    rw [opening]
    by_cases armed : h.pollAdd 1 = true
    · simp only [armed, and_self, if_true, after, false_and, if_false, true_or, or_true, iff_true]
      decide
    · simp [armed, other]
  · by_cases accepts : tcp.state = tcpStateRecvOpen
    · have other : tcpStateRecvOpen ≠ tcpStateSendOpen ||| tcpStateRecvOpen := by decide
      rw [accepts]
      simp only [other, false_and, if_false, true_and, false_or]
      by_cases taken : has flags tcpFlagSyn = true ∧ h.pollAdd 2 = true
      · simp only [taken, and_self, if_true, or_true, iff_true]
        decide
      · simp [taken]
    · simp [opening, accepts]

theorem tcpAcked_sending_iff (h : HostNet) (f : Frame) (ts : TcpSock) :
    tcpSending (tcpAcked h f ts).ts.tcp = true ↔ TcpOpens h f ts := by
  have queue := tcpAckWindow_tcp h
    (tcpAckQueue f.tcpAck (tcpStart f.tcpFlags f.tcpSeq f.tcpWindow ts))
  have state : (tcpAckWindow h (tcpAckQueue f.tcpAck
      (tcpStart f.tcpFlags f.tcpSeq f.tcpWindow ts))).ts.tcp.state = ts.tcp.state := by
    rw [queue]
    rfl
  have seq : (tcpAckWindow h (tcpAckQueue f.tcpAck
      (tcpStart f.tcpFlags f.tcpSeq f.tcpWindow ts))).ts.tcp.seq = ts.tcp.seq := by
    rw [queue]
    rfl
  have seqAck : (tcpAckWindow h (tcpAckQueue f.tcpAck
      (tcpStart f.tcpFlags f.tcpSeq f.tcpWindow ts))).ts.tcp.seqAck =
        (tcpFreeAcked f.tcpAck ts.tcp.segments ts.tcp.seqAck).2 := by
    rw [queue]
    rfl
  unfold tcpAcked tcpAckPhase TcpOpens
  dsimp only
  rw [seq, seqAck]
  split_ifs with acks expected
  · rw [tcpSending_opened ts.tcp h _ _ _ ((tcpAckFin_state _).trans state)]
    exact or_congr_right
      ⟨fun opened => ⟨acks, expected.2, expected.1, opened⟩, fun all => all.2.2.2⟩
  · rw [tcpSending, state]
    exact (or_iff_left fun all => expected ⟨all.2.2.1, all.2.1⟩).symm
  · exact (or_iff_left fun all => acks all.1).symm

/-- Exactly when the handlers stay inside an accepted IPv4 frame, by protocol. -/
structure ParseOk (h : HostNet) (tap : TapDev) (f : Frame) (n : Nat) : Prop where
  tcpHeader : f.proto = 0x6 → f.payload + 16 ≤ n
  tcpData : f.proto = 0x6 → f.totalLength < f.headerLength → tcpHdrSize ≤ f.tcpDataOff →
    ∀ ts, f.tcpSock tap = some ts → ¬ TcpOpens h f ts
  udpHeader : f.proto = 0x11 → udpHdrSize ≤ f.payloadLength → f.payload + 6 ≤ n
  udpData : f.proto = 0x11 → udpHdrSize ≤ f.payloadLength →
    f.udpLength.toNat ≤ f.payloadLength → ¬ f.Dhcp tap → f.UdpForwarded h tap →
    f.udpPayload = 0 ∨ f.payload + udpHdrSize + f.udpPayload ≤ n
  dhcp : f.proto = 0x11 → udpHdrSize ≤ f.payloadLength →
    f.udpLength.toNat ≤ f.payloadLength → f.Dhcp tap →
    OptionsInside f (f.payload + udpHdrSize) f.udpPayload n 240
  icmp : f.proto = 0x1 → f.Echo → f.payload + 6 ≤ n

section Accepted

variable {h : HostNet} {tap : TapDev} {f : Frame} {size : Addr}

theorem payload_end_of_le (accepted : f.Ipv4Accepted size) (ordered : f.headerLength ≤ f.totalLength) :
    f.payload + f.payloadLength ≤ size.toNat := by
  have fits := accepted.2.2.2
  rw [Frame.payloadLength_of_le ordered, Frame.payload]
  omega

theorem payload_end_of_lt (size : Addr) (wraps : f.totalLength < f.headerLength) :
    size.toNat < f.payload + f.payloadLength := by
  rw [Frame.payloadLength_of_lt wraps, Frame.payload]
  omega

theorem handleTcp_inside_iff (accepted : f.Ipv4Accepted size) :
    (∀ e ∈ (handleTcp h tap f f.payload f.payloadLength f.dst f.src).2, e.Inside size.toNat) ↔
      f.payload + 16 ≤ size.toNat ∧
        (f.totalLength < f.headerLength → tcpHdrSize ≤ f.tcpDataOff →
          ∀ ts, f.tcpSock tap = some ts → ¬ TcpOpens h f ts) := by
  rw [handleTcp_forall fun e silent => silent.inside _, tcpReads_inside_iff]
  refine and_congr_right fun _ => ?_
  constructor
  · rintro ⟨sends, -⟩ wraps header ts known opens
    have beyond := payload_end_of_lt size wraps
    have covered : tcpSkip h f ts < f.payloadLength := by
      have short := f.headerLength_le
      have offset : f.tcpDataOff ≤ 60 := by
        unfold Frame.tcpDataOff
        omega
      rw [Frame.payloadLength_of_lt wraps, tcpSkip]
      omega
    have inside := sends ts known ((tcpAcked_sending_iff h f ts).mpr opens) header covered
    have range := spans_iff.mp inside
    omega
  · intro quiet
    refine ⟨fun ts known opens header covered => spans_of_le ?_, fun _ _ => trivial⟩
    by_cases wraps : f.totalLength < f.headerLength
    · exact absurd ((tcpAcked_sending_iff h f ts).mp opens) (quiet wraps header ts known)
    · have fits := payload_end_of_le accepted (not_lt.mp wraps)
      omega

theorem handleUdp_inside_iff :
    (∀ e ∈ (handleUdp h tap f f.payload f.payloadLength f.dst f.src).2, e.Inside size.toNat) ↔
      (udpHdrSize ≤ f.payloadLength → f.payload + 6 ≤ size.toNat ∧
        (f.udpLength.toNat ≤ f.payloadLength →
          (f.Dhcp tap →
            OptionsInside f (f.payload + udpHdrSize) f.udpPayload size.toNat 240) ∧
          (¬ f.Dhcp tap → f.UdpForwarded h tap → f.udpPayload = 0 ∨
            f.payload + udpHdrSize + f.udpPayload ≤ size.toNat))) := by
  rw [handleUdp_forall fun e silent => silent.inside _, udpReads_inside_iff, handleDhcp_inside_iff]
  simp [TapEvent.Inside, spans_iff]

theorem handleIcmp_inside_iff (accepted : f.Ipv4Accepted size) :
    (∀ e ∈ (handleIcmp h tap f f.payload f.payloadLength f.dst f.src).2, e.Inside size.toNat) ↔
      (f.Echo → f.payload + 6 ≤ size.toNat) := by
  have whole : f.payloadLength < 1460 → f.payload + f.payloadLength ≤ size.toNat := by
    intro small
    refine payload_end_of_le accepted (not_lt.mp fun wraps => ?_)
    have short := f.headerLength_le
    rw [Frame.payloadLength_of_lt wraps] at small
    omega
  rw [handleIcmp_forall fun e silent => silent.inside _]
  constructor
  · exact fun all echo => (inside_read two_pos).mp (all.2 echo).1
  · intro fits
    refine ⟨fun long small => spans_of_le ?_, fun echo => ⟨?_, fun _ => ?_, fun _ => ?_⟩⟩
    · omega
    · exact (inside_read two_pos).mpr (fits echo)
    · exact spans_of_le (whole echo.2.1)
    · simp only [emulateIcmp, forall_mem_cons, not_mem_nil, false_imp_iff, implies_true,
        and_true]
      exact ⟨spans_of_le (whole echo.2.1), spans_of_le (whole echo.2.1)⟩

end Accepted

/-- Every frame byte touched lies inside the frame exactly for the frames that are not
accepted IPv4 frames or whose transport lengths are consistent in the sense of `ParseOk`. -/
theorem tapSend_inside_iff (h : HostNet) (tap : TapDev) (f : Frame) (size : Addr) :
    (∀ e ∈ (tapSend h tap f size).2, e.Inside size.toNat) ↔
      (f.Ipv4Accepted size → ParseOk h tap f size.toNat) := by
  rw [tapSend_forall (fun off len fits => spans_of_le fits) (fun target fits => spans_of_le fits)]
  refine imp_congr_right fun accepted => ?_
  unfold ipv4Dispatch
  split_ifs with tcp udp icmp
  · have notUdp : f.proto ≠ 0x11 := by
      rw [tcp]
      decide
    have notIcmp : f.proto ≠ 0x1 := by
      rw [tcp]
      decide
    rw [handleTcp_inside_iff accepted]
    constructor
    · rintro ⟨header, data⟩
      exact ⟨fun _ => header, fun _ => data, fun other => absurd other notUdp,
        fun other => absurd other notUdp, fun other => absurd other notUdp,
        fun other => absurd other notIcmp⟩
    · exact fun ok => ⟨ok.tcpHeader tcp, ok.tcpData tcp⟩
  · have notIcmp : f.proto ≠ 0x1 := by
      rw [udp]
      decide
    rw [handleUdp_inside_iff]
    constructor
    · intro all
      exact ⟨fun other => absurd other tcp, fun other => absurd other tcp,
        fun _ long => (all long).1, fun _ long fits => ((all long).2 fits).2,
        fun _ long fits => ((all long).2 fits).1, fun other => absurd other notIcmp⟩
    · exact fun ok long =>
        ⟨ok.udpHeader udp long, fun fits => ⟨ok.dhcp udp long fits, ok.udpData udp long fits⟩⟩
  · rw [handleIcmp_inside_iff accepted]
    constructor
    · intro all
      exact ⟨fun other => absurd other tcp, fun other => absurd other tcp,
        fun other => absurd other udp, fun other => absurd other udp,
        fun other => absurd other udp, fun _ => all⟩
    · exact fun ok => ok.icmp icmp
  · exact iff_of_true (forall_mem_nil _)
      ⟨fun other => absurd other tcp, fun other => absurd other tcp,
        fun other => absurd other udp, fun other => absurd other udp,
        fun other => absurd other udp, fun other => absurd other icmp⟩

def emptyUdp : List Byte :=
  [0, 8, 0x97, 0xDE, 0xC0, 0xDE, 2, 0, 0, 0, 0, 1, 0x08, 0x00,
   0x45, 0, 0, 28, 0, 0, 0x40, 0, 64, 0x11, 0, 0, 192, 168, 0, 100, 8, 8, 8, 8,
   0x9C, 0x40, 0, 53, 0, 0, 0, 0]

/-- The host sends 65528 bytes from past the end of the frame. -/
theorem udp_length_leaks :
    ¬ ∀ e ∈ (tapSend willingHost freshTap (frameOf emptyUdp) 42).2, e.Inside 42 := by
  intro inside
  have sends : TapEvent.netUdpSend 0 42 65528 (frameOf emptyUdp).dstPort ∈
      (tapSend willingHost freshTap (frameOf emptyUdp) 42).2 := by decide
  have range : Spans 42 65528 42 := inside _ sends
  exact absurd (range 0 (by decide)) (by decide)

end Rvvm.Tap
