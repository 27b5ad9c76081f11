import Rvvm.Machine.Host

/-! The user-mode network: parsing of the frames a guest transmits and the host socket
calls they lead to. A handler returns the network state it leaves and the events it
causes; every byte of the frame it reads, copies or hands to the host is one of them. -/
namespace Rvvm.Tap
open Function (update)

/-- Memory from the frame's first byte on: past the frame's length it is whatever the
host has there. -/
abbrev Frame := Nat → Byte

def Frame.u16be (f : Frame) (off : Nat) : BitVec 16 := f off ++ f (off + 1)

def Frame.u32be (f : Frame) (off : Nat) : BitVec 32 := f.u16be off ++ f.u16be (off + 2)

def sizeSub (a b : Nat) : Nat := (a + 2 ^ 64 - b) % 2 ^ 64

inductive NetType where
  | ipv4
  | ipv6
  deriving DecidableEq

/-- `net_addr_t`; an IPv4 address occupies the first four bytes of `ip`. -/
structure NetAddr where
  type : NetType
  port : BitVec 16
  ip : Fin 16 → Byte
  deriving DecidableEq

/-- A zeroed IPv4 address with four bytes copied from the frame. -/
def Frame.ipv4 (f : Frame) (off : Nat) : NetAddr where
  type := .ipv4
  port := 0
  ip := fun i => if i < 4 then f (off + i) else 0

/-- `tap_sock_t` of a UDP port or an ICMP identifier. -/
structure TapSock where
  sock : Nat
  addr : NetAddr
  timeout : BitVec 32

structure TcpCtx where
  /-- Sizes of the queued segments, oldest first. -/
  segments : List Nat
  seq : BitVec 32
  ack : BitVec 32
  seqAck : BitVec 32
  window : BitVec 16
  state : BitVec 8
  winFull : Bool

/-- `tap_sock_t` of a TCP connection; `remote` is `net_sock_addr` of its socket. -/
structure TcpSock extends TapSock where
  remote : NetAddr
  tcp : TcpCtx

/-- `tap_dev_t`, with the static `icmp_sock_available` of `handle_icmp`. Socket numbers
stand for the host sockets; `nextSock` is the next one opened. -/
structure TapDev where
  filtLan : Bool
  icmpSockAvailable : Bool
  udpPorts : BitVec 16 → Option TapSock
  icmpIds : BitVec 16 → Option TapSock
  tcpMap : BitVec 64 → List TcpSock
  nextSock : Nat

/-- What the host answers during one frame; `pollAdd` has one answer per call site. -/
structure HostNet where
  icmpBind : Bool
  udpBind : Bool
  tcpConnect : Bool
  tcpSend : Int
  pollAdd : Nat → Bool
  randomSeq : BitVec 32

inductive Reply where
  | arp (target : Nat)
  | icmp (off len : Nat)
  | dhcp (offer : Bool)
  | tcp (sock : Nat) (flags : BitVec 8) (seq ack : BitVec 32)
  deriving DecidableEq

/-- `off` and `len` select bytes of the guest's frame. -/
inductive TapEvent where
  | read (off len : Nat)
  | netTcpConnect (dst : NetAddr)
  | netTcpSend (sock off len : Nat)
  | netTcpShutdown (sock : Nat)
  | netUdpSend (sock off len : Nat) (dst : NetAddr)
  | netIcmpSend (sock off len : Nat) (dst : NetAddr)
  | netPollAdd (sock : Nat)
  | ethSend (reply : Reply)
  deriving DecidableEq

def bounded (timeout : BitVec 32) : BitVec 32 := if timeout ≠ 0xFFFF then 0 else timeout

/-- `emulate_icmp`: the request is copied into the reply. -/
def emulateIcmp (base size : Nat) : List TapEvent :=
  [.read base size, .ethSend (.icmp base size)]

def icmpEcho (h : HostNet) (tap : TapDev) (icmpId : BitVec 16) (base size : Nat)
    (dst src : NetAddr) : TapDev × List TapEvent :=
  if tap.icmpSockAvailable then
    match tap.icmpIds icmpId with
    | some ts =>
      let ts := { ts with timeout := bounded ts.timeout }
      ({ tap with icmpIds := update tap.icmpIds icmpId (some ts) },
        [.netIcmpSend ts.sock base size dst])
    | none =>
      if h.icmpBind then
        let ts : TapSock := ⟨tap.nextSock, src, 0⟩
        ({ tap with
            icmpIds := update tap.icmpIds icmpId (some ts)
            nextSock := tap.nextSock + 1 },
          [.netPollAdd ts.sock, .netIcmpSend ts.sock base size dst])
      else ({ tap with icmpSockAvailable := false }, emulateIcmp base size)
  else (tap, emulateIcmp base size)

def handleIcmp (h : HostNet) (tap : TapDev) (f : Frame) (base size : Nat) (dst src : NetAddr) :
    TapDev × List TapEvent :=
  if 4 ≤ size ∧ size < 1460 then
    if f.u16be base = 0x0800 then
      let out := icmpEcho h tap (f.u16be (base + 4)) base size dst src
      (out.1, .read base 2 :: .read (base + 4) 2 :: out.2)
    else (tap, [.read base 2])
  else (tap, [])

def dhcpMsgTypeOption : Byte := 0x35
def dhcpEndmark : Byte := 0xFF
def dhcpDiscover : Byte := 0x1

/-- The option loop of `handle_dhcp` from position `i`: the message type it finds and
the bytes it reads. -/
def dhcpScan (f : Frame) (base size i : Nat) : Byte × List TapEvent :=
  if i + 2 < size then
    if f (base + i) = dhcpMsgTypeOption then
      (f (base + i + 2), [.read (base + i) 1, .read (base + i + 2) 1])
    else
      let rest := dhcpScan f base size (i + 2 + (f (base + i + 1)).toNat)
      (rest.1, .read (base + i) 1 :: .read (base + i + 1) 1 :: rest.2)
  else (dhcpEndmark, [])
termination_by size - i

def handleDhcp (f : Frame) (base size : Nat) : List TapEvent :=
  if size < 240 then []
  else
    let scan := dhcpScan f base size 240
    if scan.1 = dhcpEndmark then scan.2
    else scan.2 ++ [.read (base + 4) 4, .read (base + 28) 16, .read (base + 236) 4,
      .ethSend (.dhcp (scan.1 = dhcpDiscover))]

/-- Filter unwanted outbound traffic to special addresses. -/
def tapAddrAllowed (tap : TapDev) (addr : NetAddr) : Bool :=
  if addr.type = .ipv4 then
    if addr.ip 0 = 127 then false
    else if addr.ip 0 = 0 then false
    else if addr.ip 0 ≥ 224 ∧ addr.ip 0 ≤ 239 then false
    else if addr.ip 0 = 255 ∧ addr.ip 1 = 255 ∧ addr.ip 2 = 255 ∧ addr.ip 3 = 255 then false
    else if tap.filtLan then
      if addr.ip 0 = 10 then false
      else if addr.ip 0 = 172 ∧ addr.ip 1 ≥ 16 ∧ addr.ip 1 < 32 then false
      else if addr.ip 0 = 192 ∧ addr.ip 1 = 168 then false
      else if addr.ip 0 = 169 ∧ addr.ip 1 = 254 then false
      else true
    else true
  else true

/-- The address as a number, first byte highest. -/
def NetAddr.number (addr : NetAddr) : Nat :=
  (((addr.ip 0).toNat * 256 + (addr.ip 1).toNat) * 256 + (addr.ip 2).toNat) * 256 + (addr.ip 3).toNat

/-- The address lies in a network, which is given by its number and the length of its mask. -/
def NetAddr.InNet (addr : NetAddr) (net : Nat × Nat) : Prop :=
  addr.number / 2 ^ (32 - net.2) = net.1 / 2 ^ (32 - net.2)

/-- 127.0.0.0/8, 0.0.0.0/8, 224.0.0.0/4 and 255.255.255.255/32. -/
def hostNets : List (Nat × Nat) := [(0x7F000000, 8), (0, 8), (0xE0000000, 4), (0xFFFFFFFF, 32)]

/-- 10.0.0.0/8, 172.16.0.0/12, 192.168.0.0/16 and 169.254.0.0/16. -/
def lanNets : List (Nat × Nat) := [(0x0A000000, 8), (0xAC100000, 12), (0xC0A80000, 16), (0xA9FE0000, 16)]

/-- What the filter lets through: every IPv6 address, and IPv4 addresses outside these networks. -/
theorem tapAddrAllowed_iff (tap : TapDev) (addr : NetAddr) :
    tapAddrAllowed tap addr = true ↔ (addr.type = .ipv4 → (∀ net ∈ hostNets, ¬ addr.InNet net) ∧
      (tap.filtLan = true → ∀ net ∈ lanNets, ¬ addr.InNet net)) := by
  have byte (i : Fin 16) : (addr.ip i).toNat < 256 := (addr.ip i).isLt
  have first := byte 0
  have second := byte 1
  have third := byte 2
  have fourth := byte 3
  have host : (∀ net ∈ hostNets, ¬ addr.InNet net) ↔ ¬ addr.ip 0 = 127 ∧ ¬ addr.ip 0 = 0 ∧
      ¬ (addr.ip 0 ≥ 224 ∧ addr.ip 0 ≤ 239) ∧
      ¬ (addr.ip 0 = 255 ∧ addr.ip 1 = 255 ∧ addr.ip 2 = 255 ∧ addr.ip 3 = 255) := by
    simp [hostNets, NetAddr.InNet, NetAddr.number, ← BitVec.toNat_inj, BitVec.le_def]
    omega
  have lan : (∀ net ∈ lanNets, ¬ addr.InNet net) ↔ ¬ addr.ip 0 = 10 ∧
      ¬ (addr.ip 0 = 172 ∧ addr.ip 1 ≥ 16 ∧ addr.ip 1 < 32) ∧
      ¬ (addr.ip 0 = 192 ∧ addr.ip 1 = 168) ∧ ¬ (addr.ip 0 = 169 ∧ addr.ip 1 = 254) := by
    simp [lanNets, NetAddr.InNet, NetAddr.number, ← BitVec.toNat_inj, BitVec.le_def, BitVec.lt_def]
    omega
  rw [host, lan, tapAddrAllowed]
  simp only [Bool.if_false_left, Bool.if_true_right, Bool.and_eq_true, Bool.or_eq_true, Bool.not_eq_eq_eq_not,
    Bool.not_true, decide_eq_false_iff_not]
  grind

def udpHdrSize : Nat := 8

def srcUnset (src : NetAddr) : Bool :=
  decide (src.ip 0 = 0 ∧ src.ip 1 = 0 ∧ src.ip 2 = 0 ∧ src.ip 3 = 0)

/-- The final send of `handle_udp`, the only one behind the filter. -/
def udpForward (tap : TapDev) (ts : TapSock) (off len : Nat) (dst : NetAddr) : List TapEvent :=
  if tapAddrAllowed tap dst then [.netUdpSend ts.sock off len dst] else []

/-- The header fields `handle_udp` reads. -/
def udpReads (base : Nat) : List TapEvent := [.read base 2, .read (base + 2) 2, .read (base + 4) 2]

/-- `handle_udp` past its length checks. -/
def udpDeliver (h : HostNet) (tap : TapDev) (f : Frame) (udpBuff udpSize : Nat)
    (dst src : NetAddr) : TapDev × List TapEvent :=
  match tap.udpPorts src.port with
  | some ts =>
    let ts := { ts with timeout := bounded ts.timeout }
    ({ tap with udpPorts := update tap.udpPorts src.port (some ts) },
      udpForward tap ts udpBuff udpSize dst)
  | none =>
    if dst.port = 67 ∧ srcUnset src then (tap, handleDhcp f udpBuff udpSize)
    else if h.udpBind then
      let ts : TapSock := ⟨tap.nextSock, src, 0⟩
      ({ tap with
          udpPorts := update tap.udpPorts src.port (some ts)
          nextSock := tap.nextSock + 1 },
        .netPollAdd ts.sock :: udpForward tap ts udpBuff udpSize dst)
    else (tap, [])

def handleUdp (h : HostNet) (tap : TapDev) (f : Frame) (base size : Nat) (dst src : NetAddr) :
    TapDev × List TapEvent :=
  if size < udpHdrSize then (tap, [])
  else
    let src := { src with port := f.u16be base }
    let dst := { dst with port := f.u16be (base + 2) }
    let udpSize := f.u16be (base + 4)
    if size < udpSize.toNat then (tap, udpReads base)
    else
      -- `udp_size` is a `uint16_t`, and so is the difference.
      let out := udpDeliver h tap f (base + udpHdrSize) (udpSize - 8).toNat dst src
      (out.1, udpReads base ++ out.2)

def tcpFlagFin : BitVec 8 := 0x1
def tcpFlagSyn : BitVec 8 := 0x2
def tcpFlagRst : BitVec 8 := 0x4
def tcpFlagAck : BitVec 8 := 0x10

def tcpStateClosed : BitVec 8 := 0x00
def tcpStateEstablished : BitVec 8 := 0x02
def tcpStateSendOpen : BitVec 8 := 0x04
def tcpStateRecvOpen : BitVec 8 := 0x08

def tcpHdrSize : Nat := 0x14

def has (x mask : BitVec 8) : Bool := x &&& mask != 0

def tcpWindowAvail (tcp : TcpCtx) : Bool := (tcp.seq - tcp.seqAck).toNat < tcp.window.toNat

def tcpAckAmount (seqAck ack : BitVec 32) : Nat :=
  if (ack - seqAck).toNat < 0x80000000 then (ack - seqAck).toNat else 0

def readIp32Le (addr : NetAddr) : BitVec 32 := addr.ip 3 ++ addr.ip 2 ++ addr.ip 1 ++ addr.ip 0

def readIp64Le (addr : NetAddr) (off : Nat) : BitVec 64 :=
  addr.ip (Fin.ofNat 16 (off + 7)) ++ addr.ip (Fin.ofNat 16 (off + 6)) ++
    addr.ip (Fin.ofNat 16 (off + 5)) ++ addr.ip (Fin.ofNat 16 (off + 4)) ++
    addr.ip (Fin.ofNat 16 (off + 3)) ++ addr.ip (Fin.ofNat 16 (off + 2)) ++
    addr.ip (Fin.ofNat 16 (off + 1)) ++ addr.ip (Fin.ofNat 16 off)

def tcpHashTuple (remote loc : NetAddr) : BitVec 64 :=
  let hash := ((remote.port.setWidth 32 <<< 16) + loc.port.setWidth 32).setWidth 64
  match remote.type with
  | .ipv6 =>
    hash + (readIp64Le remote 0 + readIp64Le loc 0) + (readIp64Le remote 8 + readIp64Le loc 8)
  | .ipv4 => hash + (readIp32Le remote + readIp32Le loc).setWidth 64

def tapTcpLookup (tap : TapDev) (remote loc : NetAddr) : Option TcpSock :=
  (tap.tcpMap (tcpHashTuple remote loc)).find? fun ts => ts.addr = loc ∧ ts.remote = remote

def tapTcpHash (ts : TcpSock) : BitVec 64 := tcpHashTuple ts.remote ts.addr

def tapTcpRegister (tap : TapDev) (ts : TcpSock) : TapDev :=
  { tap with
    tcpMap := update tap.tcpMap (tapTcpHash ts) (tap.tcpMap (tapTcpHash ts) ++ [ts]) }

def tapTcpRemove (tap : TapDev) (ts : TcpSock) : TapDev :=
  { tap with
    tcpMap := update tap.tcpMap (tapTcpHash ts)
      ((tap.tcpMap (tapTcpHash ts)).eraseP fun t => t.sock = ts.sock) }

/-- Writes through the pointer that the lookup returned. -/
def tapTcpStore (tap : TapDev) (ts : TcpSock) : TapDev :=
  { tap with
    tcpMap := update tap.tcpMap (tapTcpHash ts)
      ((tap.tcpMap (tapTcpHash ts)).map fun t => if t.sock = ts.sock then ts else t) }

def tapTcpSegment (ts : TcpSock) (flags : BitVec 8) : TapEvent :=
  .ethSend (.tcp ts.sock flags
    (ts.tcp.seq - if has flags (tcpFlagSyn ||| tcpFlagFin) then 1 else 0) ts.tcp.ack)

/-- Locals of `handle_tcp` for a segment of a known connection. -/
structure TcpStep where
  ts : TcpSock
  reset : Bool
  respAck : Bool
  cleanup : Bool
  events : List TapEvent

/-- Frees the acknowledged segments at the head of the queue. -/
def tcpFreeAcked (ack : BitVec 32) : List Nat → BitVec 32 → List Nat × BitVec 32
  | [], seqAck => ([], seqAck)
  | size :: rest, seqAck =>
    if size ≤ tcpAckAmount seqAck ack then
      tcpFreeAcked ack rest (seqAck + BitVec.ofNat 32 size)
    else (size :: rest, seqAck)

/-- Acknowledgement, first part: the retransmission queue. -/
def tcpAckQueue (ack : BitVec 32) (l : TcpStep) : TcpStep :=
  let (segments, seqAck) := tcpFreeAcked ack l.ts.tcp.segments l.ts.tcp.seqAck
  { l with
    ts := { l.ts with
      timeout := if segments.length < l.ts.tcp.segments.length then 0 else l.ts.timeout
      tcp := { l.ts.tcp with segments, seqAck } } }

/-- Acknowledgement, second part: the window became available. -/
def tcpAckWindow (h : HostNet) (l : TcpStep) : TcpStep :=
  if l.ts.tcp.winFull ∧ has l.ts.tcp.state tcpStateRecvOpen ∧ tcpWindowAvail l.ts.tcp then
    { l with
      reset := l.reset || !h.pollAdd 0
      ts := { l.ts with tcp := { l.ts.tcp with winFull := false } }
      events := l.events ++ [.netPollAdd l.ts.sock] }
  else l

/-- The guest acknowledged an inbound FIN. -/
def tcpAckFin (l : TcpStep) : TcpStep :=
  if has l.ts.tcp.state tcpStateEstablished ∧ ¬ has l.ts.tcp.state tcpStateRecvOpen then
    { l with
      ts := { l.ts with tcp := { l.ts.tcp with seqAck := l.ts.tcp.seqAck + 1 } }
      cleanup := l.cleanup || l.ts.tcp.state = tcpStateEstablished }
  else l

/-- The guest acknowledged an inbound SYN ACK. -/
def tcpAckSynAck (h : HostNet) (l : TcpStep) : TcpStep :=
  if l.ts.tcp.state = tcpStateSendOpen ||| tcpStateRecvOpen then
    let l := { l with events := l.events ++ [TapEvent.netPollAdd l.ts.sock] }
    if h.pollAdd 1 then
      { l with
        ts := { l.ts with
          tcp := { l.ts.tcp with
            state := l.ts.tcp.state ||| tcpStateEstablished
            seqAck := l.ts.tcp.seqAck + 1 } } }
    else { l with reset := true }
  else l

/-- The guest accepted an inbound connection. -/
def tcpAckSyn (h : HostNet) (flags : BitVec 8) (seq : BitVec 32) (l : TcpStep) : TcpStep :=
  if l.ts.tcp.state = tcpStateRecvOpen ∧ has flags tcpFlagSyn then
    let l := { l with events := l.events ++ [TapEvent.netPollAdd l.ts.sock] }
    if h.pollAdd 2 then
      { l with
        ts := { l.ts with
          tcp := { l.ts.tcp with
            state := l.ts.tcp.state ||| (tcpStateSendOpen ||| tcpStateEstablished)
            ack := seq + 1
            seqAck := l.ts.tcp.seqAck + 1 } }
        respAck := true }
    else { l with reset := true }
  else l

/-- The acknowledgement part of `handle_tcp`. -/
def tcpAckPhase (h : HostNet) (flags : BitVec 8) (seq ack : BitVec 32) (l : TcpStep) : TcpStep :=
  if has flags tcpFlagAck then
    let l := tcpAckWindow h (tcpAckQueue ack l)
    if l.ts.tcp.seq = l.ts.tcp.seqAck + 1 ∧ ack = l.ts.tcp.seq then
      tcpAckSyn h flags seq (tcpAckSynAck h (tcpAckFin l))
    else l
  else l

def netErrBlock : Int := -2

def tcpSending (tcp : TcpCtx) : Bool :=
  has tcp.state tcpStateEstablished && has tcp.state tcpStateSendOpen

def tcpDataPhase (h : HostNet) (base size dataOff : Nat) (seq : BitVec 32) (l : TcpStep) :
    TcpStep :=
  if tcpSending l.ts.tcp ∧ tcpHdrSize ≤ dataOff ∧ dataOff < size then
    let l := { l with respAck := true }
    let sendLen := size - dataOff
    let seqOff := (l.ts.tcp.ack - seq).toNat
    if seqOff < sendLen then
      let l := { l with
        events := l.events ++ [.netTcpSend l.ts.sock (base + dataOff + seqOff) (sendLen - seqOff)] }
      if 0 ≤ h.tcpSend then
        { l with
          ts := { l.ts with
            tcp := { l.ts.tcp with ack := l.ts.tcp.ack + BitVec.ofInt 32 h.tcpSend } } }
      else if h.tcpSend ≠ netErrBlock then { l with reset := true }
      else l
    else l
  else l

def tcpFinPhase (flags : BitVec 8) (seq : BitVec 32) (size dataOff : Nat) (l : TcpStep) : TcpStep :=
  if has flags tcpFlagFin ∧
      (seq.toNat + sizeSub size dataOff) % 2 ^ 64 = l.ts.tcp.ack.toNat then
    let l :=
      if has l.ts.tcp.state tcpStateSendOpen then
        { l with
          ts := { l.ts with
            tcp := { l.ts.tcp with
              state := l.ts.tcp.state &&& ~~~ tcpStateSendOpen
              ack := l.ts.tcp.ack + 1 } }
          events := l.events ++ [.netTcpShutdown l.ts.sock] }
      else l
    { l with
      cleanup := l.cleanup || l.ts.tcp.state = tcpStateEstablished
      respAck := true }
  else l

def tcpReplyPhase (flags : BitVec 8) (l : TcpStep) : TcpStep :=
  if l.reset then
    { l with
      events := if has flags tcpFlagRst then l.events
        else l.events ++ [tapTcpSegment l.ts tcpFlagRst]
      cleanup := l.cleanup ||
        has l.ts.tcp.state tcpStateEstablished != has l.ts.tcp.state tcpStateRecvOpen
      ts := { l.ts with tcp := { l.ts.tcp with state := tcpStateClosed } } }
  else if l.respAck then { l with events := l.events ++ [tapTcpSegment l.ts tcpFlagAck] }
  else l

/-- The segment's effect on the locals once its connection is found. -/
def tcpStart (flags : BitVec 8) (seq : BitVec 32) (window : BitVec 16) (ts : TcpSock) : TcpStep where
  ts := { ts with timeout := 1, tcp := { ts.tcp with window } }
  reset := has flags tcpFlagRst
  respAck := seq ≠ ts.tcp.ack
  cleanup := false
  events := []

/-- The header fields `handle_tcp` reads before anything else. -/
def tcpReads (base : Nat) : List TapEvent :=
  [.read base 2, .read (base + 2) 2, .read (base + 4) 4, .read (base + 8) 4, .read (base + 12) 1,
    .read (base + 13) 1, .read (base + 14) 2]

def handleTcp (h : HostNet) (tap : TapDev) (f : Frame) (base size : Nat) (dst src : NetAddr) :
    TapDev × List TapEvent :=
  let src := { src with port := f.u16be base }
  let dst := { dst with port := f.u16be (base + 2) }
  let seq := f.u32be (base + 4)
  let ack := f.u32be (base + 8)
  let dataOff := (f (base + 12)).toNat / 16 * 4
  let flags := f (base + 13)
  let window := f.u16be (base + 14)
  match tapTcpLookup tap dst src with
  | some ts =>
    let l := tcpAckPhase h flags seq ack (tcpStart flags seq window ts)
    let l := tcpFinPhase flags seq size dataOff (tcpDataPhase h base size dataOff seq l)
    let l := tcpReplyPhase flags l
    (if l.cleanup then tapTcpRemove tap l.ts else tapTcpStore tap l.ts, tcpReads base ++ l.events)
  | none =>
    if flags = tcpFlagSyn then
      if h.tcpConnect then
        let ts : TcpSock :=
          { sock := tap.nextSock, addr := src, timeout := 0, remote := dst
            tcp := ⟨[], h.randomSeq, seq + 1, h.randomSeq, window, tcpStateSendOpen, false⟩ }
        ({ tapTcpRegister tap ts with nextSock := tap.nextSock + 1 },
          tcpReads base ++ [.netTcpConnect dst, .netPollAdd ts.sock])
      else (tap, tcpReads base ++ [.netTcpConnect dst])
    else (tap, tcpReads base)

def ipv4HdrSize : Nat := 0x14
def ipv6HdrSize : Nat := 0x28
def arpv4HdrSize : Nat := 0x1C
def eth2HdrSize : Nat := 0xE

def ipv4Dispatch (h : HostNet) (tap : TapDev) (f : Frame) (proto : Byte) (base size : Nat)
    (dst src : NetAddr) : TapDev × List TapEvent :=
  if proto = 0x6 then handleTcp h tap f base size dst src
  else if proto = 0x11 then handleUdp h tap f base size dst src
  else if proto = 0x1 then handleIcmp h tap f base size dst src
  else (tap, [])

def handleIpv4 (h : HostNet) (tap : TapDev) (f : Frame) (base size : Nat) :
    TapDev × List TapEvent :=
  if size < ipv4HdrSize then (tap, [])
  else
    let totalLength := (f.u16be (base + 2)).toNat
    let headerLength := (f base).toNat % 16 * 4
    let fragFlags := f.u16be (base + 6)
    let reads := [.read (base + 2) 2, .read base 1, .read (base + 6) 2]
    if fragFlags &&& 0x3FFF ≠ 0 then (tap, reads)
    else if size < totalLength then (tap, reads)
    else
      let src := f.ipv4 (base + 12)
      let dst := f.ipv4 (base + 16)
      let out := ipv4Dispatch h tap f (f (base + 9)) (base + headerLength)
        (sizeSub totalLength headerLength) dst src
      (out.1, reads ++ [.read (base + 12) 4, .read (base + 16) 4, .read (base + 9) 1] ++ out.2)

/-- `handle_ipv6` parses the header and drops the packet. -/
def handleIpv6 (f : Frame) (base size : Nat) : List TapEvent :=
  if size < ipv6HdrSize then []
  else if size < (f.u16be (base + 4)).toNat + ipv6HdrSize then [.read (base + 4) 2]
  else [.read (base + 4) 2, .read (base + 8) 16, .read (base + 24) 16, .read (base + 6) 1]

/-- `memcmp` of four bytes at two places of the frame. -/
def Frame.same4 (f : Frame) (a b : Nat) : Bool :=
  decide (f a = f b ∧ f (a + 1) = f (b + 1) ∧ f (a + 2) = f (b + 2) ∧ f (a + 3) = f (b + 3))

/-- `memcmp` of four bytes of the frame with an address. -/
def Frame.is4 (f : Frame) (off : Nat) (a b c d : Byte) : Bool :=
  decide (f off = a ∧ f (off + 1) = b ∧ f (off + 2) = c ∧ f (off + 3) = d)

def handleArp (f : Frame) (base size : Nat) : List TapEvent :=
  if size < arpv4HdrSize then []
  else
    let reads := [.read (base + 2) 2, .read (base + 6) 2]
    if f.u16be (base + 6) ≠ 0x1 ∨ f.u16be (base + 2) ≠ 0x0800 then reads
    else
      let senderIp := base + 14
      let targetIp := base + 24
      let reads := reads ++ [.read senderIp 4, .read targetIp 4]
      if f.same4 senderIp targetIp then reads
      else if f.is4 senderIp 0 0 0 0 then reads
      else if f.is4 targetIp 192 168 0 100 then reads
      else reads ++ [.ethSend (.arp targetIp)]

def tapSend (h : HostNet) (tap : TapDev) (f : Frame) (size : Addr) : TapDev × List TapEvent :=
  if size.toNat < eth2HdrSize then (tap, [])
  else
    let etherType := f.u16be 12
    let out :=
      if etherType = 0x0800 then handleIpv4 h tap f 14 (size.toNat - eth2HdrSize)
      else if etherType = 0x86DD then (tap, handleIpv6 f 14 (size.toNat - eth2HdrSize))
      else if etherType = 0x0806 then (tap, handleArp f 14 (size.toNat - eth2HdrSize))
      else (tap, [])
    (out.1, .read 12 2 :: out.2)

def freshTap : TapDev where
  filtLan := false
  icmpSockAvailable := true
  udpPorts := fun _ => none
  icmpIds := fun _ => none
  tcpMap := fun _ => []
  nextSock := 0

def willingHost : HostNet where
  icmpBind := true
  udpBind := true
  tcpConnect := true
  tcpSend := 0
  pollAdd := fun _ => true
  randomSeq := 0

def frameOf (bytes : List Byte) : Frame := fun i => bytes.getD i 0

end Rvvm.Tap
