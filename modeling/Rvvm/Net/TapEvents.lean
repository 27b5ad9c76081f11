import Rvvm.Net.Tap

/-! Which events a frame can cause: one characterisation of `tap_send` for any property
of single events, used by the isolation and the bounds results. -/
namespace Rvvm.Tap
open List Option

namespace Frame

def totalLength (f : Frame) : Nat := (f.u16be 16).toNat

def headerLength (f : Frame) : Nat := (f 14).toNat % 16 * 4

/-- Where the transport header of an IPv4 frame starts. -/
def payload (f : Frame) : Nat := 14 + f.headerLength

/-- The transport length `handle_ipv4` computes; it wraps when the header length exceeds
the total length. -/
def payloadLength (f : Frame) : Nat := sizeSub f.totalLength f.headerLength

def proto (f : Frame) : Byte := f 23

def src (f : Frame) : NetAddr := f.ipv4 26

def dst (f : Frame) : NetAddr := f.ipv4 30

/-- The frame passes the checks of `tap_send` and `handle_ipv4`. -/
def Ipv4Accepted (f : Frame) (size : Addr) : Prop :=
  34 ≤ size.toNat ∧ f.u16be 12 = 0x0800 ∧ f.u16be 20 &&& 0x3FFF = 0 ∧
    14 + f.totalLength ≤ size.toNat

theorem headerLength_le (f : Frame) : f.headerLength ≤ 60 := by
  unfold headerLength
  omega

theorem payloadLength_of_le {f : Frame} (ordered : f.headerLength ≤ f.totalLength) :
    f.payloadLength = f.totalLength - f.headerLength := by
  have small : f.totalLength < 2 ^ 16 := (f.u16be 16).isLt
  unfold payloadLength sizeSub
  omega

theorem payloadLength_of_lt {f : Frame} (wraps : f.totalLength < f.headerLength) :
    f.payloadLength = 2 ^ 64 - (f.headerLength - f.totalLength) := by
  unfold payloadLength sizeSub
  omega

end Frame

section Events

variable {P : TapEvent → Prop} {h : HostNet} {tap : TapDev} {f : Frame} {size : Nat}

section
theorem forall_mem_pair {a b : TapEvent} (first : P a) (second : P b) : ∀ e ∈ [a, b], P e := by
  simp only [forall_mem_cons, not_mem_nil, false_imp_iff, implies_true, and_true]
  exact ⟨first, second⟩

variable (reads : ∀ off len, off + len ≤ 14 + size → P (.read off len))
include reads

theorem handleArp_forall
    (arp : ∀ target, target + 4 ≤ 14 + size → P (.ethSend (.arp target))) :
    ∀ e ∈ handleArp f 14 size, P e := by
  unfold handleArp
  by_cases short : size < arpv4HdrSize
  · rw [if_pos short]
    exact forall_mem_nil P
  · have long : 28 ≤ size := not_lt.mp short
    have header : ∀ e ∈ [TapEvent.read (14 + 2) 2, .read (14 + 6) 2], P e :=
      forall_mem_pair (reads _ _ (by omega)) (reads _ _ (by omega))
    have addresses : ∀ e ∈ [TapEvent.read (14 + 14) 4, .read (14 + 24) 4], P e :=
      forall_mem_pair (reads _ _ (by omega)) (reads _ _ (by omega))
    have both := forall_mem_append.mpr ⟨header, addresses⟩
    dsimp only
    split_ifs
    · exact header
    · exact both
    · exact both
    · exact both
    · exact forall_mem_append.mpr
        ⟨both, forall_mem_singleton.mpr (arp _ (by omega))⟩

theorem handleIpv6_forall :
    ∀ e ∈ handleIpv6 f 14 size, P e := by
  unfold handleIpv6 ipv6HdrSize
  split_ifs
  · exact forall_mem_nil P
  · exact forall_mem_singleton.mpr (reads _ _ (by omega))
  · simp only [forall_mem_cons, not_mem_nil, false_imp_iff, implies_true, and_true]
    exact ⟨reads _ _ (by omega), reads _ _ (by omega), reads _ _ (by omega), reads _ _ (by omega)⟩

/-- Beyond header reads inside the frame, what an accepted IPv4 frame causes is what its
protocol handler causes. -/
theorem handleIpv4_forall :
    (∀ e ∈ (handleIpv4 h tap f 14 size).2, P e) ↔
      (20 ≤ size → f.u16be 20 &&& 0x3FFF = 0 → f.totalLength ≤ size →
        ∀ e ∈ (ipv4Dispatch h tap f f.proto f.payload f.payloadLength f.dst f.src).2, P e) := by
  unfold handleIpv4
  by_cases short : size < ipv4HdrSize
  · rw [if_pos short]
    exact iff_of_true (forall_mem_nil P) fun long => absurd long (not_le.mpr short)
  · have long : 20 ≤ size := not_lt.mp short
    have header : ∀ e ∈ [TapEvent.read (14 + 2) 2, .read 14 1, .read (14 + 6) 2], P e :=
      forall_mem_cons.mpr ⟨reads _ _ (by omega), forall_mem_pair (reads _ _ (by omega)) (reads _ _ (by omega))⟩
    have addresses : ∀ e ∈ [TapEvent.read (14 + 12) 4, .read (14 + 16) 4, .read (14 + 9) 1], P e :=
      forall_mem_cons.mpr ⟨reads _ _ (by omega), forall_mem_pair (reads _ _ (by omega)) (reads _ _ (by omega))⟩
    dsimp only
    split_ifs with fragment exceeds
    · exact iff_of_true header fun _ whole => absurd whole fragment
    · exact iff_of_true header fun _ _ fits => absurd fits (not_le.mpr exceeds)
    · have whole : f.u16be 20 &&& 0x3FFF = 0 := not_not.mp fragment
      have fits : f.totalLength ≤ size := not_lt.mp exceeds
      have split := forall_mem_append.mpr ⟨header, addresses⟩
      constructor
      · exact fun all _ _ _ => (forall_mem_append.mp all).2
      · exact fun all => forall_mem_append.mpr ⟨split, all long whole fits⟩
end

theorem tapSend_forall {size : Addr}
    (reads : ∀ off len, off + len ≤ size.toNat → P (.read off len))
    (arp : ∀ target, target + 4 ≤ size.toNat → P (.ethSend (.arp target))) :
    (∀ e ∈ (tapSend h tap f size).2, P e) ↔
      (f.Ipv4Accepted size →
        ∀ e ∈ (ipv4Dispatch h tap f f.proto f.payload f.payloadLength f.dst f.src).2, P e) := by
  unfold tapSend
  by_cases short : size.toNat < eth2HdrSize
  · rw [if_pos short]
    refine iff_of_true (forall_mem_nil P) fun accepted => absurd accepted.1 ?_
    unfold eth2HdrSize at short
    omega
  · have long : 14 + (size.toNat - eth2HdrSize) = size.toNat := by
      unfold eth2HdrSize at *
      omega
    rw [if_neg short]
    have first : P (.read 12 2) := reads _ _ (by omega)
    have reads : ∀ off len, off + len ≤ 14 + (size.toNat - eth2HdrSize) → P (.read off len) :=
      fun off len inside => reads off len (long ▸ inside)
    simp only [forall_mem_cons, first, true_and]
    split_ifs with ipv4 ipv6 isArp
    · rw [handleIpv4_forall reads]
      constructor
      · rintro all ⟨header, -, whole, fits⟩
        exact all (by omega) whole (by omega)
      · exact fun all header whole fits => all ⟨by omega, ipv4, whole, by omega⟩
    · exact iff_of_true (handleIpv6_forall reads) fun accepted => absurd accepted.2.1 ipv4
    · exact iff_of_true (handleArp_forall reads fun target inside => arp target (long ▸ inside))
        fun accepted => absurd accepted.2.1 ipv4
    · exact iff_of_true (forall_mem_nil P) fun accepted => absurd accepted.2.1 ipv4

end Events

inductive Silent : TapEvent → Prop where
  | pollAdd (sock : Nat) : Silent (.netPollAdd sock)
  | shutdown (sock : Nat) : Silent (.netTcpShutdown sock)
  | segment (sock : Nat) (flags : BitVec 8) (seq ack : BitVec 32) :
      Silent (.ethSend (.tcp sock flags seq ack))

section Tcp

variable {P : TapEvent → Prop} (silent : ∀ e, Silent e → P e) {h : HostNet} {l : TcpStep}
  {flags : BitVec 8} {seq ack : BitVec 32} {base size dataOff : Nat}

theorem forall_append_singleton {es : List TapEvent} {e : TapEvent} (holds : P e) :
    (∀ x ∈ es ++ [e], P x) ↔ ∀ x ∈ es, P x := by
  rw [forall_mem_append, forall_mem_singleton]
  exact and_iff_left holds

include silent

theorem tcpAckWindow_forall : (∀ e ∈ (tcpAckWindow h l).events, P e) ↔ ∀ e ∈ l.events, P e := by
  unfold tcpAckWindow
  split_ifs
  · exact forall_append_singleton (silent _ (.pollAdd _))
  · rfl

theorem tcpAckSynAck_forall : (∀ e ∈ (tcpAckSynAck h l).events, P e) ↔ ∀ e ∈ l.events, P e := by
  unfold tcpAckSynAck
  split_ifs
  · exact forall_append_singleton (silent _ (.pollAdd _))
  · exact forall_append_singleton (silent _ (.pollAdd _))
  · rfl

theorem tcpAckSyn_forall : (∀ e ∈ (tcpAckSyn h flags seq l).events, P e) ↔ ∀ e ∈ l.events, P e := by
  unfold tcpAckSyn
  split_ifs
  · exact forall_append_singleton (silent _ (.pollAdd _))
  · exact forall_append_singleton (silent _ (.pollAdd _))
  · rfl

theorem tcpAckPhase_forall :
    (∀ e ∈ (tcpAckPhase h flags seq ack l).events, P e) ↔ ∀ e ∈ l.events, P e := by
  have fin : ∀ l : TcpStep, (tcpAckFin l).events = l.events := by
    intro l
    unfold tcpAckFin
    split_ifs <;> rfl
  unfold tcpAckPhase
  dsimp only
  split_ifs
  · rw [tcpAckSyn_forall silent, tcpAckSynAck_forall silent, fin, tcpAckWindow_forall silent]
    rfl
  · rw [tcpAckWindow_forall silent]
    rfl
  · rfl

theorem tcpFinPhase_forall :
    (∀ e ∈ (tcpFinPhase flags seq size dataOff l).events, P e) ↔ ∀ e ∈ l.events, P e := by
  unfold tcpFinPhase
  split_ifs
  · exact forall_append_singleton (silent _ (.shutdown _))
  · rfl
  · rfl

theorem tcpReplyPhase_forall :
    (∀ e ∈ (tcpReplyPhase flags l).events, P e) ↔ ∀ e ∈ l.events, P e := by
  unfold tcpReplyPhase
  split_ifs
  · rfl
  · exact forall_append_singleton (silent _ (.segment _ _ _ _))
  · exact forall_append_singleton (silent _ (.segment _ _ _ _))
  · rfl

omit silent in
theorem tcpDataPhase_forall :
    (∀ e ∈ (tcpDataPhase h base size dataOff seq l).events, P e) ↔
      (∀ e ∈ l.events, P e) ∧
        (tcpSending l.ts.tcp = true → tcpHdrSize ≤ dataOff → dataOff < size →
          (l.ts.tcp.ack - seq).toNat < size - dataOff →
          P (.netTcpSend l.ts.sock (base + dataOff + (l.ts.tcp.ack - seq).toNat)
            (size - dataOff - (l.ts.tcp.ack - seq).toNat))) := by
  unfold tcpDataPhase
  dsimp only
  split_ifs with sends covered
  · simp only [forall_mem_append, forall_mem_singleton, sends, covered, true_imp_iff]
  · simp only [forall_mem_append, forall_mem_singleton, sends, covered, true_imp_iff]
  · simp only [forall_mem_append, forall_mem_singleton, sends, covered, true_imp_iff]
  · simp only [covered, false_imp_iff, implies_true, and_true]
  · exact ⟨fun all => ⟨all, fun opens header inside => absurd ⟨opens, header, inside⟩ sends⟩,
      And.left⟩

end Tcp

namespace Frame

/-- The TCP or UDP source and destination, ports included. -/
def srcPort (f : Frame) : NetAddr := { f.src with port := f.u16be f.payload }

def dstPort (f : Frame) : NetAddr := { f.dst with port := f.u16be (f.payload + 2) }

def tcpSeq (f : Frame) : BitVec 32 := f.u32be (f.payload + 4)

def tcpAck (f : Frame) : BitVec 32 := f.u32be (f.payload + 8)

def tcpDataOff (f : Frame) : Nat := (f (f.payload + 12)).toNat / 16 * 4

def tcpFlags (f : Frame) : BitVec 8 := f (f.payload + 13)

def tcpWindow (f : Frame) : BitVec 16 := f.u16be (f.payload + 14)

def tcpSock (f : Frame) (tap : TapDev) : Option TcpSock := tapTcpLookup tap f.dstPort f.srcPort

end Frame

/-- The locals of `handle_tcp` after the acknowledgement part. -/
def tcpAcked (h : HostNet) (f : Frame) (ts : TcpSock) : TcpStep :=
  tcpAckPhase h f.tcpFlags f.tcpSeq f.tcpAck (tcpStart f.tcpFlags f.tcpSeq f.tcpWindow ts)

/-- The part of a TCP segment that `handle_tcp` passes on: data offset plus the bytes
already accepted, up to the transport length. -/
def tcpSkip (h : HostNet) (f : Frame) (ts : TcpSock) : Nat :=
  f.tcpDataOff + ((tcpAcked h f ts).ts.tcp.ack - f.tcpSeq).toNat

variable {P : TapEvent → Prop}

theorem handleTcp_forall (silent : ∀ e, Silent e → P e) (h : HostNet)
    (tap : TapDev) (f : Frame) :
    (∀ e ∈ (handleTcp h tap f f.payload f.payloadLength f.dst f.src).2, P e) ↔
      (∀ e ∈ tcpReads f.payload, P e) ∧
        (∀ ts, f.tcpSock tap = some ts → tcpSending (tcpAcked h f ts).ts.tcp = true →
          tcpHdrSize ≤ f.tcpDataOff → tcpSkip h f ts < f.payloadLength →
          P (.netTcpSend (tcpAcked h f ts).ts.sock (f.payload + tcpSkip h f ts)
            (f.payloadLength - tcpSkip h f ts))) ∧
        (f.tcpSock tap = none → f.tcpFlags = tcpFlagSyn → P (.netTcpConnect f.dstPort)) := by
  have lookup : tapTcpLookup tap { f.dst with port := f.u16be (f.payload + 2) }
      { f.src with port := f.u16be f.payload } = f.tcpSock tap := rfl
  unfold handleTcp
  dsimp only
  rw [lookup]
  cases found : f.tcpSock tap with
  | some ts =>
    rw [forall_mem_append, tcpReplyPhase_forall silent, tcpFinPhase_forall silent,
      tcpDataPhase_forall, tcpAckPhase_forall silent]
    refine and_congr_right fun _ => ?_
    have range : f.payload + tcpSkip h f ts = f.payload + f.tcpDataOff +
        ((tcpAcked h f ts).ts.tcp.ack - f.tcpSeq).toNat := (Nat.add_assoc _ _ _).symm
    have length : f.payloadLength - tcpSkip h f ts = f.payloadLength - f.tcpDataOff -
        ((tcpAcked h f ts).ts.tcp.ack - f.tcpSeq).toNat := Nat.sub_add_eq _ _ _
    have covered : tcpSkip h f ts < f.payloadLength ↔ f.tcpDataOff < f.payloadLength ∧
        ((tcpAcked h f ts).ts.tcp.ack - f.tcpSeq).toNat < f.payloadLength - f.tcpDataOff := by
      omega
    constructor
    · rintro ⟨-, sends⟩
      refine ⟨?_, nofun⟩
      intro other same opens header inside
      obtain rfl := some.inj same
      rw [range, length]
      exact sends opens header (covered.mp inside).1 (covered.mp inside).2
    · rintro ⟨sends, -⟩
      refine ⟨forall_mem_nil P, fun opens header start inside => ?_⟩
      have send := sends ts rfl opens header (covered.mpr ⟨start, inside⟩)
      rw [range, length] at send
      exact send
  | none =>
    have poll : P (.netPollAdd tap.nextSock) := silent _ (.pollAdd _)
    have noSend : ∀ (Q : TcpSock → Prop), (∀ ts, none = some ts → Q ts) ↔ True :=
      fun Q => iff_true_intro nofun
    rw [noSend, true_and]
    split_ifs with syn connects
    · rw [forall_mem_append, forall_mem_cons, forall_mem_singleton]
      exact and_congr_right fun _ => ⟨fun both _ _ => both.1, fun sent => ⟨sent rfl syn, poll⟩⟩
    · rw [forall_mem_append, forall_mem_singleton]
      exact and_congr_right fun _ => ⟨fun sent _ _ => sent, fun sent => sent rfl syn⟩
    · exact (and_iff_left fun _ isSyn => absurd isSyn syn).symm

namespace Frame

def udpLength (f : Frame) : BitVec 16 := f.u16be (f.payload + 4)

/-- The payload length `handle_udp` computes, a `uint16_t`. -/
def udpPayload (f : Frame) : Nat := (f.udpLength - 8).toNat

/-- `handle_udp` answers the datagram itself, as a DHCP request. -/
def Dhcp (f : Frame) (tap : TapDev) : Prop :=
  tap.udpPorts f.srcPort.port = none ∧ f.dstPort.port = 67 ∧ srcUnset f.src = true

/-- The datagram has or gets a host socket and passes the filter. -/
def UdpForwarded (f : Frame) (h : HostNet) (tap : TapDev) : Prop :=
  ((tap.udpPorts f.srcPort.port).isSome = true ∨ h.udpBind = true) ∧
    tapAddrAllowed tap f.dstPort = true

def udpSock (f : Frame) (tap : TapDev) : Nat :=
  ((tap.udpPorts f.srcPort.port).map TapSock.sock).getD tap.nextSock

end Frame

theorem udpForward_forall {tap : TapDev} {ts : TapSock} {off len : Nat}
    {dst : NetAddr} :
    (∀ e ∈ udpForward tap ts off len dst, P e) ↔
      (tapAddrAllowed tap dst = true → P (.netUdpSend ts.sock off len dst)) := by
  unfold udpForward
  split_ifs with allowed
  · simp [allowed]
  · exact iff_of_true (forall_mem_nil P) fun passes => absurd passes allowed

section
variable (silent : ∀ e, Silent e → P e) (h : HostNet) (tap : TapDev) (f : Frame)
include silent h tap f

theorem udpDeliver_forall (off len : Nat) :
    (∀ e ∈ (udpDeliver h tap f off len f.dstPort f.srcPort).2, P e) ↔
      (f.Dhcp tap → ∀ e ∈ handleDhcp f off len, P e) ∧
        (¬ f.Dhcp tap → f.UdpForwarded h tap →
          P (.netUdpSend (f.udpSock tap) off len f.dstPort)) := by
  unfold udpDeliver Frame.Dhcp Frame.UdpForwarded Frame.udpSock
  cases known : tap.udpPorts f.srcPort.port with
  | some ts =>
    rw [udpForward_forall]
    simp
  | none =>
    have poll : P (.netPollAdd tap.nextSock) := silent _ (.pollAdd _)
    by_cases request : f.dstPort.port = 67 ∧ srcUnset f.src = true
    · have taken : f.dstPort.port = 67 ∧ srcUnset f.srcPort = true := request
      rw [if_pos taken]
      simp [request]
    · have passed : ¬ (f.dstPort.port = 67 ∧ srcUnset f.srcPort = true) := request
      simp only [request, true_and, and_false, false_imp_iff, not_false_eq_true, true_imp_iff,
        isSome_none, Bool.false_eq_true, false_or, map_none, getD_none]
      split_ifs with binds
      · rw [forall_mem_cons, udpForward_forall, and_iff_right poll]
        exact ⟨fun sent passes => sent passes.2, fun sent allowed => sent ⟨binds, allowed⟩⟩
      · exact iff_of_true (forall_mem_nil P) fun passes => absurd passes.1 binds

theorem handleUdp_forall :
    (∀ e ∈ (handleUdp h tap f f.payload f.payloadLength f.dst f.src).2, P e) ↔
      (udpHdrSize ≤ f.payloadLength → (∀ e ∈ udpReads f.payload, P e) ∧
        (f.udpLength.toNat ≤ f.payloadLength →
          (f.Dhcp tap → ∀ e ∈ handleDhcp f (f.payload + udpHdrSize) f.udpPayload, P e) ∧
          (¬ f.Dhcp tap → f.UdpForwarded h tap →
            P (.netUdpSend (f.udpSock tap) (f.payload + udpHdrSize) f.udpPayload f.dstPort)))) := by
  unfold handleUdp
  dsimp only
  split_ifs with short exceeds
  · exact iff_of_true (forall_mem_nil P) fun long => absurd long (not_le.mpr short)
  · have tooLong : ¬ f.udpLength.toNat ≤ f.payloadLength := not_le.mpr exceeds
    simp [not_lt.mp short, tooLong]
  · have fits : f.udpLength.toNat ≤ f.payloadLength := not_lt.mp exceeds
    simp only [not_lt.mp short, fits, true_imp_iff]
    rw [forall_mem_append]
    exact and_congr_right fun _ => udpDeliver_forall silent h tap f _ _
end

namespace Frame

/-- An echo request within the size limits of `handle_icmp`. -/
def Echo (f : Frame) : Prop :=
  4 ≤ f.payloadLength ∧ f.payloadLength < 1460 ∧ f.u16be f.payload = 0x0800

def icmpId (f : Frame) : BitVec 16 := f.u16be (f.payload + 4)

/-- The echo leaves through a host ICMP socket. -/
def EchoForwarded (f : Frame) (h : HostNet) (tap : TapDev) : Prop :=
  tap.icmpSockAvailable = true ∧ ((tap.icmpIds f.icmpId).isSome = true ∨ h.icmpBind = true)

def icmpSock (f : Frame) (tap : TapDev) : Nat :=
  ((tap.icmpIds f.icmpId).map TapSock.sock).getD tap.nextSock

end Frame

section
variable (silent : ∀ e, Silent e → P e) (h : HostNet) (tap : TapDev) (f : Frame)
include silent h tap f

theorem icmpEcho_forall (base size : Nat) :
    (∀ e ∈ (icmpEcho h tap f.icmpId base size f.dst f.src).2, P e) ↔
      (f.EchoForwarded h tap → P (.netIcmpSend (f.icmpSock tap) base size f.dst)) ∧
        (¬ f.EchoForwarded h tap → ∀ e ∈ emulateIcmp base size, P e) := by
  unfold icmpEcho Frame.EchoForwarded Frame.icmpSock
  by_cases available : tap.icmpSockAvailable = true
  · rw [if_pos available]
    cases known : tap.icmpIds f.icmpId with
    | some ts => simp [available]
    | none =>
      have poll : P (.netPollAdd tap.nextSock) := silent _ (.pollAdd _)
      by_cases binds : h.icmpBind = true
      · simp [available, binds, poll]
      · simp [binds]
  · simp [available]

theorem handleIcmp_forall :
    (∀ e ∈ (handleIcmp h tap f f.payload f.payloadLength f.dst f.src).2, P e) ↔
      (4 ≤ f.payloadLength → f.payloadLength < 1460 → P (.read f.payload 2)) ∧
      (f.Echo → P (.read (f.payload + 4) 2) ∧
        (f.EchoForwarded h tap →
          P (.netIcmpSend (f.icmpSock tap) f.payload f.payloadLength f.dst)) ∧
        (¬ f.EchoForwarded h tap → ∀ e ∈ emulateIcmp f.payload f.payloadLength, P e)) := by
  unfold handleIcmp Frame.Echo
  split_ifs with sized echo
  · simp only [sized.1, sized.2, echo, and_self, true_imp_iff, forall_mem_cons]
    rw [← icmpEcho_forall silent]
    rfl
  · simp only [sized.1, sized.2, echo, and_false, true_imp_iff, false_imp_iff, and_true,
      forall_mem_singleton]
  · refine iff_of_true (forall_mem_nil P) ⟨?_, ?_⟩
    · exact fun long small => absurd ⟨long, small⟩ sized
    · exact fun isEcho => absurd ⟨isEcho.1, isEcho.2.1⟩ sized
end

end Rvvm.Tap
