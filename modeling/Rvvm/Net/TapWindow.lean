import Rvvm.Net.TapQueue

/-! Flow control towards the guest: the data `tap_tcp_recv` sends, against the window the guest
advertised last. -/
namespace Rvvm.Tap
open Runs

/-- The connection and the window in the last segment of the guest. -/
def windowStep (s : Option Conn × BitVec 16) (e : ConnEvent) : Option Conn × BitVec 16 where
  fst := s.1.bind (·.step e)
  snd := match e with
    | .segment _ f base _ => (f.tcpHeader base).window
    | _ => s.2

/-- The bytes sent and not yet acknowledged. -/
def Conn.outstanding (c : Conn) : Nat := (c.ts.tcp.seq - c.ts.tcp.seqAck).toNat

/-- `tap_tcp_recv` is called and finds the window open. -/
def Conn.receives (c : Conn) (send : Bool) : Bool :=
  c.watch.isSome && !(send && decide (c.watch = some .send)) && tcpWindowAvail c.ts.tcp

/-- What the host answers is queued and numbered byte for byte. -/
theorem Conn.poll_sends {c : Conn} {send : Bool} {answer : HostAnswer} (fits : answer.recv ≤ tcpRecvRoom)
    (receives : c.receives send = true) (data : 0 < answer.recv) :
    ∃ c' ∈ c.step (.poll send answer fits), c'.ts.tcp.segments = c.ts.tcp.segments ++ [answer.recv.toNat] ∧
      c'.ts.tcp.seq = c.ts.tcp.seq + BitVec.ofNat 32 answer.recv.toNat := by
  simp only [Conn.receives, Bool.and_eq_true, Bool.not_eq_true'] at receives
  obtain ⟨⟨watched, receiving⟩, avail⟩ := receives
  have number : BitVec.ofInt 32 answer.recv = BitVec.ofNat 32 answer.recv.toNat := by
    rw [← BitVec.ofInt_natCast, Int.toNat_of_nonneg (le_of_lt data)]
  simp [step, event, recv, watched, receiving, avail, data, number]

/-- No other poll queues anything. -/
theorem Conn.poll_quiet {c c' : Conn} {send : Bool} {answer : HostAnswer} {fits : answer.recv ≤ tcpRecvRoom}
    (quiet : ¬ (c.receives send = true ∧ 0 < answer.recv))
    (after : c.step (.poll send answer fits) = some c') : c'.ts.tcp.segments = c.ts.tcp.segments := by
  simp only [Conn.receives, Bool.and_eq_true, Bool.not_eq_true'] at quiet
  unfold step event connected recv at after
  dsimp only at after
  split_ifs at after <;> cases after <;> first | rfl | simp_all

/-- The data received is sent on at once, with what is unacknowledged within the window. -/
def FitsWindow (s : Option Conn × BitVec 16) : ConnEvent → Prop
  | .poll send answer _ => ∀ c ∈ s.1, c.receives send = true → 0 < answer.recv →
      answer.recv.toNat + c.outstanding ≤ s.2.toNat
  | _ => True

/-- A segment of the largest size fits into the window. -/
def RoomLeft (s : Option Conn × BitVec 16) : ConnEvent → Prop
  | .poll send answer _ => ∀ c ∈ s.1, c.receives send = true → 0 < answer.recv →
      tcpRecvRoom + c.outstanding ≤ c.ts.tcp.window.toNat
  | _ => True

theorem Conn.step_window {c c' : Conn} {window : BitVec 16} {e : ConnEvent} (kept : c.ts.tcp.window = window)
    (after : c.step e = some c') : c'.ts.tcp.window = (windowStep (some c, window) e).2 := by
  cases e with
  | segment h f base size =>
    rw [eq_of_segment after]
    exact tcpSegment_kept (·.tcp.window) h _ base size c.ts fun _ _ _ same => same
  | poll send answer fits =>
    unfold step event connected recv at after
    dsimp only at after
    split_ifs at after <;> cases after <;> exact kept
  | tick =>
    unfold step periodic at after
    dsimp only at after
    split_ifs at after
    cases after
    exact kept

/-- Over the life of a connection, no data segment exceeds the window, if there is room for a segment of
the largest size whenever one is sent. -/
theorem recv_fits_window (c : Conn) (events : List ConnEvent)
    (room : AllSteps windowStep RoomLeft (some c, c.ts.tcp.window) events) :
    AllSteps windowStep FitsWindow (some c, c.ts.tcp.window) events := by
  have keeps (s : Option Conn × BitVec 16) (e : ConnEvent) (known : ∀ c ∈ s.1, c.ts.tcp.window = s.2)
      (_ : RoomLeft s e) : ∀ c ∈ (windowStep s e).1, c.ts.tcp.window = (windowStep s e).2 := by
    intro c' member
    obtain ⟨c, before, after⟩ := Option.bind_eq_some_iff.mp member
    exact Conn.step_window (known c before) after
  refine AllSteps.entails keeps ?_ (fun _ same => Option.some.inj same ▸ rfl) room
  intro s e known room
  cases e with
  | poll send answer fits =>
    intro c member receives data
    have enough := room c member receives data
    rw [known c member] at enough
    omega
  | segment h f base size | tick => trivial

/-- The guest accepts a connection with the given window. -/
def guestAccepts (window : Byte) : ConnEvent :=
  .segment ⟨true, true, true, 0, fun _ => true, 0⟩
    (frameOf [0, 0, 0, 0, 0, 0, 0, 7, 0, 0, 0x10, 0, 0x50, 0x12, window, 1]) 0 20

theorem recv_fits_window_acceptedPeer :
    AllSteps windowStep FitsWindow (some acceptedPeer.conn, 0) [guestAccepts 0xFF, hostData] := by
  refine recv_fits_window acceptedPeer.conn _ ⟨trivial, ?_, trivial⟩
  rintro c same - -
  obtain rfl := Option.some.inj same
  decide +kernel

/-- The guest has room for one byte and is sent a hundred. -/
theorem recv_exceeds_window :
    ¬ AllSteps windowStep FitsWindow (some acceptedPeer.conn, 0) [guestAccepts 0, hostData] := by
  rintro ⟨-, fits, -⟩
  exact absurd (fits _ rfl (by decide +kernel) (by decide)) (by decide +kernel)

end Rvvm.Tap
