import Rvvm.Library.Runs

/-! The 16550 register core of `devices/uart16550_core.c` over any character device. The core
caches the readiness flags it was last notified of; the interrupt line follows the cache,
the interrupt identification register asks the device itself. -/
namespace Rvvm.Uart
open Runs

def chardevRx : BitVec 32 := 0x1

def chardevTx : BitVec 32 := 0x2

def ierRecv : BitVec 32 := 0x1

def ierThr : BitVec 32 := 0x2

def iirFifo : BitVec 8 := 0xC0

def iirNone : BitVec 8 := 0x1

def iirThr : BitVec 8 := 0x2

def iirRecv : BitVec 8 := 0x4

def lcrDlab : BitVec 32 := 0x80

/-- A device went over into a state and called `notify` with these flags on the way: a change
of its readiness is notified, and the last call carries the flags it then has. -/
def Announces {β : Type} (poll : β → BitVec 32) (before : β) (after : β × List (BitVec 32)) : Prop :=
  match after.2.getLast? with
  | none => poll after.1 = poll before
  | some flags => flags = poll after.1

/-- A character device with states `β` and activities of its own `ε`. A read may find no byte. -/
structure Chardev (β ε : Type) where
  poll : β → BitVec 32
  read : β → Option (BitVec 8) × β × List (BitVec 32)
  write : BitVec 8 → β → β × List (BitVec 32)
  act : ε → β → β × List (BitVec 32)
  read_announces : ∀ dev, Announces poll dev (read dev).2
  write_announces : ∀ byte dev, Announces poll dev (write byte dev)
  act_announces : ∀ e dev, Announces poll dev (act e dev)

def noChardev : Chardev Unit Empty where
  poll := fun _ => chardevTx
  read := fun _ => (none, (), [])
  write := fun _ _ => ((), [])
  act := fun e => e.elim
  read_announces := fun _ => rfl
  write_announces := fun _ _ => rfl
  act_announces := fun e => e.elim

structure UartCore where
  flags : BitVec 32
  ier : BitVec 32
  lcr : BitVec 32
  mcr : BitVec 32
  scr : BitVec 32
  dll : BitVec 32
  dlm : BitVec 32
  rxArmed : BitVec 32

/-- The core, its device, and the level last passed to `irq_fn`. -/
structure UartRun (β : Type) where
  core : UartCore
  dev : β
  line : Bool

variable {β ε : Type}

def coreInit (dev : β) : UartRun β := ⟨⟨0, 0, 0, 0, 0, 0, 0, 0⟩, dev, false⟩

/-- Receive readiness is hidden until the guest has armed it. -/
def gate (core : UartCore) (flags : BitVec 32) : BitVec 32 :=
  if core.rxArmed = 0 then flags &&& ~~~ chardevRx else flags

def visibleFlags (c : Chardev β ε) (s : UartRun β) : BitVec 32 := gate s.core (c.poll s.dev)

def level (flags ier : BitVec 32) : Bool :=
  (flags &&& chardevRx != 0 && ier &&& ierRecv != 0) ||
    (flags &&& chardevTx != 0 && ier &&& ierThr != 0)

def updateIrq (s : UartRun β) : UartRun β := { s with line := level s.core.flags s.core.ier }

def notify (s : UartRun β) (flags : BitVec 32) : UartRun β :=
  let flags := gate s.core flags
  let swapped := { s with core := { s.core with flags := flags } }
  if s.core.flags ≠ flags then updateIrq swapped else swapped

def pollChardev (c : Chardev β ε) (s : UartRun β) : UartRun β :=
  let flags := visibleFlags c s
  if flags ≠ s.core.flags then notify s flags else s

/-- The device went over into a state and notified the core on the way. -/
def moveDev (s : UartRun β) (after : β × List (BitVec 32)) : UartRun β :=
  after.2.foldl notify { s with dev := after.1 }

def iir (flags ier : BitVec 32) : BitVec 8 :=
  if (flags &&& chardevRx != 0 && ier &&& ierRecv != 0) then iirRecv ||| iirFifo
  else if (flags &&& chardevTx != 0 && ier &&& ierThr != 0) then iirThr ||| iirFifo
  else iirNone ||| iirFifo

def coreRead (c : Chardev β ε) (s : UartRun β) (reg : Nat) : BitVec 8 × UartRun β :=
  match reg with
  | 0 =>
    if s.core.lcr &&& lcrDlab ≠ 0 then (s.core.dll.setWidth 8, s)
    else if visibleFlags c s &&& chardevRx ≠ 0 then
      let result := c.read s.dev
      (result.1.getD 0, pollChardev c (moveDev s result.2))
    else (0, s)
  | 1 =>
    if s.core.lcr &&& lcrDlab ≠ 0 then (s.core.dlm.setWidth 8, s)
    else (s.core.ier.setWidth 8, s)
  | 2 => (iir (visibleFlags c s) s.core.ier, s)
  | 3 => (s.core.lcr.setWidth 8, s)
  | 4 => (s.core.mcr.setWidth 8, s)
  | 5 =>
    let flags := visibleFlags c s
    ((if flags &&& chardevRx ≠ 0 then 0x1 else 0) ||| (if flags &&& chardevTx ≠ 0 then 0x60 else 0), s)
  | 6 => (0xB0, s)
  | 7 => (s.core.scr.setWidth 8, s)
  | _ => (0, s)

def coreWrite (c : Chardev β ε) (s : UartRun β) (reg : Nat) (val : BitVec 8) : UartRun β :=
  let word := val.setWidth 32
  match reg with
  | 0 =>
    if s.core.lcr &&& lcrDlab ≠ 0 then { s with core := { s.core with dll := word } }
    else pollChardev c (moveDev s (c.write val s.dev))
  | 1 =>
    if s.core.lcr &&& lcrDlab ≠ 0 then { s with core := { s.core with dlm := word } }
    else
      let s := { s with core := { s.core with ier := word } }
      let s :=
        if word &&& ierRecv ≠ 0 then pollChardev c { s with core := { s.core with rxArmed := 1 } } else s
      updateIrq s
  | 3 => { s with core := { s.core with lcr := word } }
  | 4 => { s with core := { s.core with mcr := word } }
  | 7 => { s with core := { s.core with scr := word } }
  | _ => s

inductive UartEvent (ε : Type) where
  | read (reg : Nat)
  | write (reg : Nat) (val : BitVec 8)
  | act (e : ε)

def uartStep (c : Chardev β ε) (s : UartRun β) : UartEvent ε → UartRun β
  | .read reg => (coreRead c s reg).2
  | .write reg val => coreWrite c s reg val
  | .act e => moveDev s (c.act e s.dev)

/-- The line is up exactly when the identification register would report an interrupt. -/
def LineRight (c : Chardev β ε) (s : UartRun β) : Prop :=
  s.line = true ↔ (coreRead c s 2).1 ≠ iirNone ||| iirFifo

/-- A write that enables the transmitter interrupt and not the receiver's finds the cached
transmit readiness up to date. -/
def CacheFresh (c : Chardev β ε) (s : UartRun β) : UartEvent ε → Prop
  | .write 1 val =>
    s.core.lcr &&& lcrDlab = 0 → val.setWidth 32 &&& ierRecv = 0 → val.setWidth 32 &&& ierThr ≠ 0 →
      (s.core.flags &&& chardevTx ≠ 0 ↔ c.poll s.dev &&& chardevTx ≠ 0)
  | _ => True

def LineCached (s : UartRun β) : Prop := s.line = level s.core.flags s.core.ier

def Synced (c : Chardev β ε) (s : UartRun β) : Prop := s.core.flags = visibleFlags c s

section Lemmas
variable {c : Chardev β ε} {s : UartRun β}

theorem updateIrq_cached (s : UartRun β) : LineCached (updateIrq s) := rfl

theorem coreInit_cached (dev : β) : LineCached (coreInit dev) := by
  simp [LineCached, coreInit, level]

theorem gate_gate (core : UartCore) (flags : BitVec 32) :
    gate core (gate core flags) = gate core flags := by
  unfold gate
  split
  · rw [BitVec.and_assoc, BitVec.and_self]
  · rfl

theorem gate_tx (core : UartCore) (flags : BitVec 32) :
    gate core flags &&& chardevTx = flags &&& chardevTx := by
  unfold gate
  split
  · rw [BitVec.and_assoc]
    rfl
  · rfl

theorem iir_ne_none_iff (flags ier : BitVec 32) :
    iir flags ier ≠ iirNone ||| iirFifo ↔ level flags ier = true := by
  unfold iir level
  cases flags &&& chardevRx != 0 && ier &&& ierRecv != 0 <;>
    cases flags &&& chardevTx != 0 && ier &&& ierThr != 0 <;> decide

theorem lineRight_iff (cached : LineCached s) :
    LineRight c s ↔ level s.core.flags s.core.ier = level (visibleFlags c s) s.core.ier := by
  have asked : (coreRead c s 2).1 = iir (visibleFlags c s) s.core.ier := rfl
  rw [LineRight, asked, iir_ne_none_iff, cached]
  exact Bool.eq_iff_iff.symm

theorem LineRight.of_synced (cached : LineCached s) (synced : Synced c s) : LineRight c s := by
  rw [lineRight_iff cached, synced]

/-- What one notification does beside the line. -/
structure Notified (s s' : UartRun β) (flags : BitVec 32) : Prop where
  flags_eq : s'.core.flags = gate s.core flags
  ier_eq : s'.core.ier = s.core.ier
  armed_eq : s'.core.rxArmed = s.core.rxArmed
  dev_eq : s'.dev = s.dev

theorem notify_spec (s : UartRun β) (flags : BitVec 32) : Notified s (notify s flags) flags := by
  unfold notify
  dsimp only
  split <;> exact ⟨rfl, rfl, rfl, rfl⟩

theorem notify_cached (cached : LineCached s) (flags : BitVec 32) : LineCached (notify s flags) := by
  unfold notify
  by_cases changed : s.core.flags ≠ gate s.core flags
  · simp only [if_pos changed]
    rfl
  · simp only [if_neg changed]
    rw [LineCached, cached, not_not.mp changed]

theorem gate_congr {s' : UartRun β} (armed : s'.core.rxArmed = s.core.rxArmed) (flags : BitVec 32) :
    gate s'.core flags = gate s.core flags := by rw [gate, armed, gate]

theorem pollChardev_synced (c : Chardev β ε) (s : UartRun β) : Synced c (pollChardev c s) := by
  unfold pollChardev
  by_cases changed : visibleFlags c s ≠ s.core.flags
  · simp only [if_pos changed]
    have done := notify_spec s (visibleFlags c s)
    have seen : visibleFlags c (notify s (visibleFlags c s)) = visibleFlags c s := by
      rw [visibleFlags, done.dev_eq, gate_congr done.armed_eq]
      rfl
    rw [Synced, done.flags_eq, seen, visibleFlags, gate_gate]
  · simp only [if_neg changed]
    exact (not_not.mp changed).symm

theorem pollChardev_cached (cached : LineCached s) : LineCached (pollChardev c s) := by
  unfold pollChardev
  dsimp only
  split
  · exact notify_cached cached _
  · exact cached

theorem foldl_notify_spec (notes : List (BitVec 32)) (cached : LineCached s) :
    LineCached (notes.foldl notify s) ∧ (notes.foldl notify s).dev = s.dev ∧
      (notes.foldl notify s).core.rxArmed = s.core.rxArmed ∧
      (notes.foldl notify s).core.ier = s.core.ier ∧
      (notes.foldl notify s).core.flags = notes.getLast?.elim s.core.flags (gate s.core) := by
  induction notes generalizing s with
  | nil => exact ⟨cached, rfl, rfl, rfl, rfl⟩
  | cons flags notes ih =>
    have done := notify_spec s flags
    obtain ⟨kept, dev_eq, armed_eq, ier_eq, flags_eq⟩ := ih (notify_cached cached flags)
    refine ⟨kept, dev_eq.trans done.dev_eq, armed_eq.trans done.armed_eq, ier_eq.trans done.ier_eq, ?_⟩
    rw [List.foldl_cons, flags_eq]
    cases notes with
    | nil => exact done.flags_eq
    | cons next notes =>
      rw [List.getLast?_cons_cons]
      cases last : (next :: notes).getLast? with
      | none => cases List.getLast?_eq_none_iff.mp last
      | some flags => exact gate_congr done.armed_eq flags

theorem moveDev_spec {after : β × List (BitVec 32)} (announced : Announces c.poll s.dev after)
    (cached : LineCached s) :
    LineCached (moveDev s after) ∧ (LineRight c s → LineRight c (moveDev s after)) := by
  obtain ⟨kept, dev_eq, armed_eq, ier_eq, flags_eq⟩ :
      LineCached (moveDev s after) ∧ (moveDev s after).dev = after.1 ∧
        (moveDev s after).core.rxArmed = s.core.rxArmed ∧ (moveDev s after).core.ier = s.core.ier ∧
        (moveDev s after).core.flags = after.2.getLast?.elim s.core.flags (gate s.core) :=
    foldl_notify_spec after.2 cached
  refine ⟨kept, fun right => ?_⟩
  have visible : visibleFlags c (moveDev s after) = gate s.core (c.poll after.1) := by
    rw [visibleFlags, dev_eq, gate_congr armed_eq]
  unfold Announces at announced
  cases last : after.2.getLast? with
  | none =>
    rw [last] at announced flags_eq
    rw [lineRight_iff cached] at right
    rw [lineRight_iff kept, visible, announced, flags_eq, ier_eq]
    exact right
  | some flags =>
    rw [last] at announced flags_eq
    apply LineRight.of_synced kept
    rw [Synced, visible, flags_eq, ← announced]
    rfl

end Lemmas

section Steps
variable {c : Chardev β ε} {s : UartRun β}

theorem coreRead_spec (cached : LineCached s) (reg : Nat) :
    LineCached (coreRead c s reg).2 ∧ (LineRight c s → LineRight c (coreRead c s reg).2) := by
  unfold coreRead
  split
  · split_ifs
    · exact ⟨cached, id⟩
    · have moved := moveDev_spec (c.read_announces s.dev) cached
      have polled := pollChardev_cached (c := c) moved.1
      exact ⟨polled, fun _ => .of_synced polled (pollChardev_synced c _)⟩
    · exact ⟨cached, id⟩
  · split_ifs
    · exact ⟨cached, id⟩
    · exact ⟨cached, id⟩
  all_goals exact ⟨cached, id⟩

/-- Setting the enable register brings the line up to date with the cache, and the cache with the
device if the receiver is enabled. -/
theorem ierWrite_spec (val : BitVec 8) (open_ : s.core.lcr &&& lcrDlab = 0) :
    LineCached (coreWrite c s 1 val) ∧
      (LineRight c (coreWrite c s 1 val) ↔ CacheFresh c s (.write 1 val)) := by
  simp only [coreWrite, open_, ne_eq, not_true_eq_false, if_false]
  by_cases recv : val.setWidth 32 &&& ierRecv = 0
  · simp only [recv, not_true_eq_false, if_false]
    refine ⟨updateIrq_cached _, ?_⟩
    rw [lineRight_iff (updateIrq_cached _)]
    simp only [updateIrq, level, recv, bne_self_eq_false, Bool.and_false, Bool.false_or, CacheFresh, open_,
      true_implies, visibleFlags, gate_tx]
    rw [Bool.eq_iff_iff]
    simp
  · simp only [recv, not_false_eq_true, if_true]
    refine ⟨updateIrq_cached _, iff_of_true (.of_synced (updateIrq_cached _) ?_)
      fun _ off => absurd off recv⟩
    exact pollChardev_synced c { s with core := { s.core with ier := val.setWidth 32, rxArmed := 1 } }

theorem coreWrite_spec (cached : LineCached s) (reg : Nat) (val : BitVec 8) :
    LineCached (coreWrite c s reg val) ∧
      (LineRight c s → (LineRight c (coreWrite c s reg val) ↔ CacheFresh c s (.write reg val))) := by
  by_cases enable : reg = 1 ∧ s.core.lcr &&& lcrDlab = 0
  · obtain ⟨rfl, open_⟩ := enable
    have done := ierWrite_spec (c := c) val open_
    exact ⟨done.1, fun _ => done.2⟩
  have free : CacheFresh c s (.write reg val) := by
    unfold CacheFresh
    split
    · next other eq =>
        cases eq
        exact fun open_ => absurd ⟨rfl, open_⟩ enable
    · trivial
  have kept : LineCached (coreWrite c s reg val) ∧ (LineRight c s → LineRight c (coreWrite c s reg val)) := by
    unfold coreWrite
    split
    · split_ifs
      · exact ⟨cached, id⟩
      · have moved := moveDev_spec (c.write_announces val s.dev) cached
        have polled := pollChardev_cached (c := c) moved.1
        exact ⟨polled, fun _ => .of_synced polled (pollChardev_synced c _)⟩
    · rw [if_pos (fun open_ => enable ⟨rfl, open_⟩)]
      exact ⟨cached, id⟩
    all_goals exact ⟨cached, id⟩
  exact ⟨kept.1, fun right => iff_of_true (kept.2 right) free⟩

theorem uartStep_cached (cached : LineCached s) (event : UartEvent ε) : LineCached (uartStep c s event) := by
  cases event with
  | read reg => exact (coreRead_spec cached reg).1
  | write reg val => exact (coreWrite_spec cached reg val).1
  | act e => exact (moveDev_spec (c.act_announces e s.dev) cached).1

theorem uartStep_right (cached : LineCached s) (right : LineRight c s) (event : UartEvent ε) :
    LineRight c (uartStep c s event) ↔ CacheFresh c s event := by
  cases event with
  | read reg => exact iff_of_true ((coreRead_spec cached reg).2 right) trivial
  | write reg val => exact (coreWrite_spec cached reg val).2 right
  | act e => exact iff_of_true ((moveDev_spec (c.act_announces e s.dev) cached).2 right) trivial

end Steps

/-- From initialization on, the line agrees with the identification register after every event
exactly when each event finds the cache fresh. -/
theorem irq_consistent_iff (c : Chardev β ε) (dev : β) (events : List (UartEvent ε)) :
    (∀ s ∈ visited (uartStep c) (coreInit dev) events, LineRight c s) ↔
      AllSteps (uartStep c) (CacheFresh c) (coreInit dev) events := by
  refine invariant_iff (fun s event (cached : LineCached s) => uartStep_cached cached event)
    (fun s event cached right => uartStep_right cached right event) events (coreInit_cached dev) ?_
  rw [lineRight_iff (coreInit_cached dev)]
  simp [coreInit, level]

/-- The guest enables the transmitter interrupt of a port that could send all along. -/
theorem irq_missed_at_start :
    (final (uartStep noChardev) (coreInit ()) [.write 1 2]).line = false ∧
      (coreRead noChardev (final (uartStep noChardev) (coreInit ()) [.write 1 2]) 2).1 =
        iirThr ||| iirFifo := by
  decide

end Rvvm.Uart
