import Rvvm.Library.Runs

/-! Which devices the slots of the xHCI controller refer to, while devices are plugged in and out
and the guest issues commands. Devices are numbered as they are created; a number is never given out
again. -/
namespace Rvvm.Xhci
open List Runs
open Function (update update_of_ne update_self)

def xhciMaxSlots : Nat := 32

def xhciMaxPorts : Nat := 8

/-- The part of `xhci_slot_t` that says which device its transfers go to. -/
structure Slot where
  inUse : Bool
  dev : Option Nat
  enabled : Nat → Bool
  pending : Nat → Bool

def Slot.empty : Slot := ⟨false, none, fun _ => false, fun _ => false⟩

/-- The controller and its bus; `port` is the port a device was created at. -/
structure Hub where
  slots : Nat → Slot
  ports : Nat → Option Nat
  port : Nat → Nat
  next : Nat
  freed : List Nat

inductive Action
  | attach (port : Option Nat)
  | free (dev : Nat)
  | enableSlot
  | disableSlot (slot : Nat)
  | addressDevice (slot rootPort : Nat) (committed : Bool)
  | configureEndpoint (slot : Nat) (drop add : BitVec 32)
  | resetDevice (slot : Nat)
  | controllerReset
  | doorbell (slot dci : Nat) (present async : Bool)
  | xferDone (dev dci : Nat)

def Hub.setSlot (s : Hub) (i : Nat) (slot : Slot) : Hub := { s with slots := update s.slots i slot }

def slotValid (i : Nat) : Bool := decide (1 ≤ i) && decide (i ≤ xhciMaxSlots)

def slotIds : List Nat := (range xhciMaxSlots).map (· + 1)

def portIds : List Nat := (range xhciMaxPorts).map (· + 1)

/-- `rvvm_usb_dev_init_at`; without a free port the device is released at once. -/
def rvvmUsbDevInitAt (s : Hub) (port : Option Nat) : Hub :=
  let claimed := match port with
    | none => portIds.find? fun i => (s.ports i).isNone
    | some port => if port ∈ portIds ∧ s.ports port = none then some port else none
  match claimed with
  | some port =>
    { s with
      ports := update s.ports port (some s.next)
      port := update s.port s.next port
      next := s.next + 1 }
  | none => { s with next := s.next + 1, freed := s.next :: s.freed }

def Hub.live (s : Hub) (dev : Nat) : Prop := dev < s.next ∧ dev ∉ s.freed

instance (s : Hub) (dev : Nat) : Decidable (s.live dev) := inferInstanceAs (Decidable (_ ∧ _))

/-- `rvvm_usb_dev_free`: the port is emptied, the controller only told of a change of its status. -/
def rvvmUsbDevFree (s : Hub) (dev : Nat) : Hub :=
  let ports := if s.ports (s.port dev) = some dev then update s.ports (s.port dev) none else s.ports
  { s with ports := ports, freed := dev :: s.freed }

def xhciAllocSlot (s : Hub) : Hub :=
  match slotIds.find? fun i => !(s.slots i).inUse with
  | some i => s.setSlot i { Slot.empty with inUse := true }
  | none => s

def xhciFreeSlot (s : Hub) (i : Nat) : Hub := if slotValid i then s.setSlot i .empty else s

def xhciDoAddressDevice (s : Hub) (i rootPort : Nat) (committed : Bool) : Hub :=
  if !slotValid i || !(s.slots i).inUse then s
  else if rootPort = 0 ∨ rootPort > xhciMaxPorts then s
  else
    match s.ports rootPort with
    | none => s
    | some dev =>
      if !committed then s
      else
        let slot := s.slots i
        s.setSlot i { slot with dev := some dev, enabled := update slot.enabled 1 true }

def xhciDoConfigureEndpoint (s : Hub) (i : Nat) (drop add : BitVec 32) : Hub :=
  if !slotValid i || !(s.slots i).inUse then s
  else
    let slot := s.slots i
    s.setSlot i { slot with enabled := fun dci =>
      if 2 ≤ dci ∧ dci < 32 then add.getLsbD dci || slot.enabled dci && !drop.getLsbD dci else slot.enabled dci }

/-- The device that an action of the guest hands to `rvvm_usb_dev_control`, `rvvm_usb_dev_xfer` or
`rvvm_usb_dev_reset`. -/
def passes (s : Hub) : Action → Option Nat
  | .resetDevice i => if slotValid i then (s.slots i).dev else none
  | .doorbell i dci present _ =>
    let slot := s.slots i
    if slotValid i && decide (1 ≤ dci) && decide (dci < 32) && slot.inUse && slot.enabled dci
        && !slot.pending dci && present then slot.dev
    else none
  | _ => none

def step (s : Hub) (action : Action) : Hub :=
  match action with
  | .attach port => rvvmUsbDevInitAt s port
  | .free dev => if s.live dev then rvvmUsbDevFree s dev else s
  | .enableSlot => xhciAllocSlot s
  | .disableSlot i => xhciFreeSlot s i
  | .addressDevice i rootPort committed => xhciDoAddressDevice s i rootPort committed
  | .configureEndpoint i drop add => xhciDoConfigureEndpoint s i drop add
  | .resetDevice _ => s
  | .controllerReset => { s with slots := fun _ => .empty }
  | .doorbell i dci _ async =>
    if (passes s action).isSome then
      let slot := s.slots i
      s.setSlot i { slot with pending := update slot.pending dci async }
    else s
  | .xferDone dev dci =>
    match slotIds.find? fun i => (s.slots i).inUse && (s.slots i).dev == some dev && (s.slots i).pending dci with
    | some i =>
      let slot := s.slots i
      s.setSlot i { slot with pending := update slot.pending dci false }
    | none => s

def NoDangling (s : Hub) : Prop := ∀ i dev, (s.slots i).dev = some dev → dev ∉ s.freed

def Detached (s : Hub) : Action → Prop
  | .free dev => s.live dev → ∀ i, (s.slots i).dev ≠ some dev
  | _ => True

/-- The bus only lists devices that exist, each at its own port. -/
structure BusLive (s : Hub) : Prop where
  listed : ∀ port dev, s.ports port = some dev → s.live dev ∧ s.port dev = port
  known : ∀ dev ∈ s.freed, dev < s.next
  held : ∀ i dev, (s.slots i).dev = some dev → dev < s.next

/-! ## One action -/

variable {s : Hub}

theorem setSlot_refers {i j dev : Nat} {slot : Slot}
    (refers : ((s.setSlot i slot).slots j).dev = some dev) :
    slot.dev = some dev ∧ j = i ∨ (s.slots j).dev = some dev := by
  unfold Hub.setSlot at refers
  dsimp only at refers
  by_cases same : j = i
  · rw [same, update_self] at refers
    exact .inl ⟨refers, same⟩
  · rw [update_of_ne same] at refers
    exact .inr refers

variable {action : Action}

theorem step_refers {i dev : Nat} (refers : ((step s action).slots i).dev = some dev) :
    (s.slots i).dev = some dev ∨ ∃ port, s.ports port = some dev := by
  cases action with
  | attach port =>
    simp only [step, rvvmUsbDevInitAt] at refers
    split at refers <;> exact .inl refers
  | free other =>
    simp only [step] at refers
    split at refers <;> exact .inl refers
  | enableSlot =>
    simp only [step, xhciAllocSlot] at refers
    split at refers
    · rcases setSlot_refers refers with ⟨absent, -⟩ | same
      · cases absent
      · exact .inl same
    · exact .inl refers
  | disableSlot j =>
    simp only [step, xhciFreeSlot] at refers
    split at refers
    · rcases setSlot_refers refers with ⟨absent, -⟩ | same
      · cases absent
      · exact .inl same
    · exact .inl refers
  | addressDevice j rootPort committed =>
    simp only [step, xhciDoAddressDevice] at refers
    split at refers
    · exact .inl refers
    · split at refers
      · exact .inl refers
      · split at refers
        · exact .inl refers
        next found =>
          split at refers
          · exact .inl refers
          · rcases setSlot_refers refers with ⟨named, -⟩ | same
            · exact .inr ⟨rootPort, found.trans named⟩
            · exact .inl same
  | configureEndpoint j drop add =>
    simp only [step, xhciDoConfigureEndpoint] at refers
    split at refers
    · exact .inl refers
    · rcases setSlot_refers refers with ⟨same, rfl⟩ | same <;> exact .inl same
  | resetDevice => exact .inl refers
  | controllerReset => cases refers
  | doorbell j dci present async | xferDone other dci =>
    simp only [step] at refers
    split at refers
    · rcases setSlot_refers refers with ⟨same, rfl⟩ | same <;> exact .inl same
    · exact .inl refers

/-- The action is not the guest's. -/
def Action.plugs : Action → Bool
  | .attach _ | .free _ => true
  | _ => false

theorem step_bus (s : Hub) (guest : action.plugs = false) :
    (step s action).ports = s.ports ∧ (step s action).port = s.port ∧ (step s action).next = s.next ∧
      (step s action).freed = s.freed := by
  cases action with
  | attach | free => cases guest
  | enableSlot =>
    simp only [step, xhciAllocSlot]
    split <;> exact ⟨rfl, rfl, rfl, rfl⟩
  | disableSlot =>
    simp only [step, xhciFreeSlot]
    split <;> exact ⟨rfl, rfl, rfl, rfl⟩
  | addressDevice =>
    simp only [step, xhciDoAddressDevice]
    repeat' split
    all_goals exact ⟨rfl, rfl, rfl, rfl⟩
  | configureEndpoint =>
    simp only [step, xhciDoConfigureEndpoint]
    split <;> exact ⟨rfl, rfl, rfl, rfl⟩
  | resetDevice | controllerReset => exact ⟨rfl, rfl, rfl, rfl⟩
  | doorbell | xferDone =>
    simp only [step]
    split <;> exact ⟨rfl, rfl, rfl, rfl⟩

theorem attach_busLive (bus : BusLive s) (port : Option Nat) : BusLive (rvvmUsbDevInitAt s port) := by
  have fresh : s.next ∉ s.freed := fun freed => Nat.lt_irrefl _ (bus.known _ freed)
  have older : ∀ {dev}, dev < s.next → dev < s.next + 1 := fun known => Nat.lt_succ_of_lt known
  unfold rvvmUsbDevInitAt
  dsimp only
  split
  next claimed _ =>
    refine ⟨fun p dev listed => ?_, fun dev freed => older (bus.known dev freed),
      fun i dev refers => older (bus.held i dev refers)⟩
    dsimp only at listed ⊢
    by_cases same : p = claimed
    · rw [same, update_self] at listed
      cases listed
      exact ⟨⟨Nat.lt_succ_self _, fresh⟩, by rw [update_self, same]⟩
    · rw [update_of_ne same] at listed
      obtain ⟨⟨known, alive⟩, own⟩ := bus.listed p dev listed
      exact ⟨⟨older known, alive⟩, by rw [update_of_ne known.ne, own]⟩
  next =>
    refine ⟨fun p dev listed => ?_, fun dev freed => ?_, fun i dev refers => older (bus.held i dev refers)⟩
    · obtain ⟨⟨known, alive⟩, own⟩ := bus.listed p dev listed
      exact ⟨⟨older known, fun freed => (mem_cons.mp freed).elim known.ne alive⟩, own⟩
    · rcases mem_cons.mp freed with rfl | freed
      · exact Nat.lt_succ_self _
      · exact older (bus.known dev freed)

theorem free_busLive (bus : BusLive s) {dev : Nat} (alive : s.live dev) :
    BusLive (rvvmUsbDevFree s dev) := by
  have gone : (rvvmUsbDevFree s dev).ports (s.port dev) ≠ some dev := by
    unfold rvvmUsbDevFree
    split
    · simp
    next other => exact other
  refine ⟨fun p other listed => ?_, fun other freed => ?_, bus.held⟩
  · have before : s.ports p = some other := by
      unfold rvvmUsbDevFree at listed
      dsimp only at listed
      split at listed
      · by_cases same : p = s.port dev
        · rw [same, update_self] at listed
          cases listed
        · rwa [update_of_ne same] at listed
      · exact listed
    obtain ⟨⟨known, living⟩, own⟩ := bus.listed p other before
    refine ⟨⟨known, fun freed => (mem_cons.mp freed).elim (fun same => ?_) living⟩, own⟩
    subst same
    exact gone (own.symm ▸ listed)
  · rcases mem_cons.mp freed with rfl | freed
    · exact alive.1
    · exact bus.known other freed

theorem guest_busLive (bus : BusLive s) (guest : action.plugs = false) :
    BusLive (step s action) := by
  obtain ⟨ports, port, next, freed⟩ := step_bus s guest
  refine ⟨fun p dev listed => ?_, fun dev member => ?_, fun i dev refers => ?_⟩
  · rw [ports] at listed
    rw [Hub.live, next, freed, port]
    exact bus.listed p dev listed
  · rw [freed] at member
    rw [next]
    exact bus.known dev member
  · rw [next]
    rcases step_refers refers with same | ⟨p, listed⟩
    · exact bus.held i dev same
    · exact (bus.listed p dev listed).1.1

theorem step_busLive (s : Hub) (action : Action) (bus : BusLive s) : BusLive (step s action) := by
  cases action with
  | attach port => exact attach_busLive bus port
  | free dev =>
    simp only [step]
    split
    next alive => exact free_busLive bus alive
    next => exact bus
  | _ => exact guest_busLive bus rfl

/-- An action leaves no slot with a freed device exactly if it does not free one that a slot refers to. -/
theorem step_noDangling_iff (s : Hub) (action : Action) (bus : BusLive s) (none : NoDangling s) :
    NoDangling (step s action) ↔ Detached s action := by
  have guest : action.plugs = false → NoDangling (step s action) := by
    intro guest i dev refers
    rw [(step_bus s guest).2.2.2]
    rcases step_refers refers with same | ⟨port, listed⟩
    · exact none i dev same
    · exact (bus.listed port dev listed).1.2
  cases action with
  | attach port =>
    refine iff_of_true (fun i dev refers freed => ?_) trivial
    have before : (s.slots i).dev = some dev := by
      simp only [step, rvvmUsbDevInitAt] at refers
      split at refers <;> exact refers
    simp only [step, rvvmUsbDevInitAt] at freed
    split at freed
    · exact none i dev before freed
    · rcases mem_cons.mp freed with rfl | freed
      · exact Nat.lt_irrefl _ (bus.held i _ before)
      · exact none i dev before freed
  | free dev =>
    simp only [step, Detached]
    by_cases alive : s.live dev
    · rw [if_pos alive]
      constructor
      · exact fun kept _ i refers => kept i dev refers mem_cons_self
      · intro unused i other refers freed
        rcases mem_cons.mp freed with rfl | freed
        · exact unused alive i refers
        · exact none i other refers freed
    · rw [if_neg alive]
      exact iff_of_true none fun living => absurd living alive
  | _ => exact iff_of_true (guest rfl) trivial

theorem passes_refers {dev : Nat} (passed : passes s action = some dev) :
    ∃ i, (s.slots i).dev = some dev := by
  cases action with
  | resetDevice i | doorbell i dci present async =>
    simp only [passes] at passed
    split at passed
    · exact ⟨i, passed⟩
    · cases passed
  | _ => cases passed

def Hub.init : Hub := ⟨fun _ => .empty, fun _ => none, fun _ => 0, 0, []⟩

/-- In a run no slot ever refers to a freed device exactly if every device is freed when no slot
refers to it; and then no freed device is handed to the USB core. -/
theorem lifetime_run_iff (actions : List Action) :
    ((∀ s ∈ visited step Hub.init actions, NoDangling s) ↔ AllSteps step Detached Hub.init actions) ∧
      (AllSteps step Detached Hub.init actions →
        AllSteps step (fun s action => ∀ dev, passes s action = some dev →
          dev ∉ s.freed) Hub.init actions) := by
  have bus : BusLive Hub.init :=
    ⟨fun _ _ listed => (by cases listed), fun _ freed => (by cases freed), fun _ _ refers => (by cases refers)⟩
  have start : NoDangling Hub.init := fun _ _ refers => (by cases refers)
  refine ⟨invariant_iff step_busLive step_noDangling_iff actions bus start, fun detached => ?_⟩
  have keeps : ∀ s action, (BusLive s ∧ NoDangling s) → Detached s action →
      BusLive (step s action) ∧ NoDangling (step s action) := fun s action both ok =>
    ⟨step_busLive s action both.1, (step_noDangling_iff s action both.1 both.2).mpr ok⟩
  refine AllSteps.entails keeps (fun s action both _ dev passed => ?_) ⟨bus, start⟩ detached
  obtain ⟨i, refers⟩ := passes_refers passed
  exact both.2 i dev refers

theorem lifetime_run_iff_unplug :
    AllSteps step (fun s action => ∀ dev, passes s action = some dev → dev ∉ s.freed) Hub.init
      [.attach none, .enableSlot, .addressDevice 1 1 true, .doorbell 1 1 true false, .controllerReset, .free 0,
        .resetDevice 1] :=
  (lifetime_run_iff _).2 ⟨trivial, trivial, trivial, trivial, trivial, fun _ _ refers => (by cases refers),
    trivial,
    trivial⟩

/-- A device in an addressed slot is unplugged, and then reset by the guest. -/
theorem freed_device_is_reset :
    let s := final step Hub.init [.attach none, .enableSlot, .addressDevice 1 1 true, .free 0]
    passes s (.resetDevice 1) = some 0 ∧ 0 ∈ s.freed := by
  decide +kernel

end Rvvm.Xhci
