import Rvvm.Net.TapEvents

/-! Guest isolation: the destinations the host is made to contact on a guest's behalf,
against the address filter. -/
namespace Rvvm.Tap
open List

def TapEvent.target : TapEvent → Option NetAddr
  | .netTcpConnect dst => some dst
  | .netUdpSend _ _ _ dst => some dst
  | .netIcmpSend _ _ _ dst => some dst
  | _ => none

def Isolated (tap : TapDev) (events : List TapEvent) : Prop :=
  ∀ e ∈ events, ∀ dst, e.target = some dst → tapAddrAllowed tap dst = true

theorem allowed_of_no_target {tap : TapDev} {e : TapEvent} (none : e.target = none) :
    ∀ dst, e.target = some dst → tapAddrAllowed tap dst = true := by
  intro dst some
  rw [none] at some
  exact absurd some.symm nofun

theorem Silent.no_target {e : TapEvent} (silent : Silent e) : e.target = none := by
  cases silent <;> rfl

theorem dhcpScan_no_target (f : Frame) (base size i : Nat) :
    ∀ e ∈ (dhcpScan f base size i).2, e.target = none := by
  induction i using dhcpScan.induct f base size with
  | case1 i inside found => simp [dhcpScan, inside, found, TapEvent.target]
  | case2 i inside other ih =>
    rw [dhcpScan, if_pos inside, if_neg other]
    simp only [forall_mem_cons]
    exact ⟨rfl, rfl, ih⟩
  | case3 i outside => simp [dhcpScan, outside]

theorem handleDhcp_no_target (f : Frame) (base size : Nat) :
    ∀ e ∈ handleDhcp f base size, e.target = none := by
  have scan := dhcpScan_no_target f base size 240
  unfold handleDhcp
  dsimp only
  split_ifs
  · exact forall_mem_nil _
  · exact scan
  · refine forall_mem_append.mpr ⟨scan, ?_⟩
    simp [TapEvent.target]

section
variable (h : HostNet) (tap : TapDev) (f : Frame)

theorem handleUdp_isolated :
    Isolated tap (handleUdp h tap f f.payload f.payloadLength f.dst f.src).2 := by
  rw [Isolated, handleUdp_forall fun e silent => allowed_of_no_target silent.no_target]
  refine fun _ => ⟨?_, fun _ => ⟨fun _ e member => ?_, fun _ forwarded dst same => ?_⟩⟩
  · simp only [udpReads, forall_mem_cons, not_mem_nil, false_imp_iff, implies_true,
      and_true]
    exact ⟨allowed_of_no_target rfl, allowed_of_no_target rfl, allowed_of_no_target rfl⟩
  · exact allowed_of_no_target (handleDhcp_no_target f _ _ e member)
  · exact Option.some.inj same ▸ forwarded.2

theorem handleIcmp_isolated_iff :
    Isolated tap (handleIcmp h tap f f.payload f.payloadLength f.dst f.src).2 ↔
      (f.Echo → f.EchoForwarded h tap → tapAddrAllowed tap f.dst = true) := by
  rw [Isolated, handleIcmp_forall fun e silent => allowed_of_no_target silent.no_target]
  constructor
  · exact fun all echo forwarded => (all.2 echo).2.1 forwarded f.dst rfl
  · intro allowed
    refine ⟨fun _ _ => allowed_of_no_target rfl, fun echo => ⟨allowed_of_no_target rfl, ?_, ?_⟩⟩
    · exact fun forwarded dst same => Option.some.inj same ▸ allowed echo forwarded
    · intro _ e member
      simp only [emulateIcmp, mem_cons, not_mem_nil, or_false] at member
      rcases member with rfl | rfl <;> exact allowed_of_no_target rfl

def Frame.Connects (f : Frame) (tap : TapDev) : Prop :=
  f.tcpSock tap = none ∧ f.tcpFlags = tcpFlagSyn

theorem handleTcp_isolated_iff :
    Isolated tap (handleTcp h tap f f.payload f.payloadLength f.dst f.src).2 ↔
      (f.Connects tap → tapAddrAllowed tap f.dst = true) := by
  have header : Isolated tap (tcpReads f.payload) := by
    intro e member
    refine allowed_of_no_target ?_
    simp only [tcpReads, mem_cons, not_mem_nil, or_false] at member
    rcases member with rfl | rfl | rfl | rfl | rfl | rfl | rfl <;> rfl
  rw [Isolated, handleTcp_forall fun e silent => allowed_of_no_target silent.no_target]
  constructor
  · rintro ⟨-, -, connect⟩ ⟨unknown, syn⟩
    exact connect unknown syn f.dstPort rfl
  · intro allowed
    refine ⟨header, fun ts _ _ _ _ => allowed_of_no_target rfl, fun unknown syn dst same => ?_⟩
    obtain rfl := Option.some.inj same
    exact allowed ⟨unknown, syn⟩

end

/-- The frame reaches none of the two handlers that skip the filter, or its destination
would pass it. -/
def IsolationOk (h : HostNet) (tap : TapDev) (f : Frame) (size : Addr) : Prop :=
  f.Ipv4Accepted size →
    (f.proto = 0x6 → f.Connects tap → tapAddrAllowed tap f.dst = true) ∧
    (f.proto = 0x1 → f.Echo → f.EchoForwarded h tap → tapAddrAllowed tap f.dst = true)

theorem tapSend_isolated_iff (h : HostNet) (tap : TapDev) (f : Frame) (size : Addr) :
    Isolated tap (tapSend h tap f size).2 ↔ IsolationOk h tap f size := by
  rw [Isolated, tapSend_forall (fun off len _ => allowed_of_no_target rfl)
    (fun target _ => allowed_of_no_target rfl)]
  refine imp_congr_right fun _ => ?_
  unfold ipv4Dispatch
  split_ifs with tcp udp icmp
  · have differs : f.proto ≠ 0x1 := by
      rw [tcp]
      decide
    rw [← Isolated, handleTcp_isolated_iff]
    exact ⟨fun allowed => ⟨fun _ => allowed, fun same => absurd same differs⟩, fun both => both.1 tcp⟩
  · have differs : f.proto ≠ 0x1 := by
      rw [udp]
      decide
    exact iff_of_true (handleUdp_isolated h tap f)
      ⟨fun same => absurd same tcp, fun same => absurd same differs⟩
  · rw [← Isolated, handleIcmp_isolated_iff]
    exact ⟨fun allowed => ⟨fun same => absurd same tcp, fun _ => allowed⟩, fun both => both.2 icmp⟩
  · exact iff_of_true (forall_mem_nil _)
      ⟨fun same => absurd same tcp, fun same => absurd same icmp⟩

def loopbackSyn : List Byte :=
  [0, 8, 0x97, 0xDE, 0xC0, 0xDE, 2, 0, 0, 0, 0, 1, 0x08, 0x00,
   0x45, 0, 0, 40, 0, 0, 0x40, 0, 64, 6, 0, 0, 192, 168, 0, 100, 127, 0, 0, 1,
   0x9C, 0x40, 0, 22, 0, 0, 0, 1, 0, 0, 0, 0, 0x50, 0x02, 0xFF, 0xFF, 0, 0, 0, 0]

/-- The host is made to connect to its own loopback. -/
theorem guest_reaches_loopback :
    ¬ Isolated freshTap (tapSend willingHost freshTap (frameOf loopbackSyn) 54).2 := by
  intro isolated
  have connects : TapEvent.netTcpConnect (frameOf loopbackSyn).dstPort ∈
      (tapSend willingHost freshTap (frameOf loopbackSyn) 54).2 := by decide
  exact absurd (isolated _ connects _ rfl) (by decide)

end Rvvm.Tap
