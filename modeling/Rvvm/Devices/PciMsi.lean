import Rvvm.Devices.PciIntx

/-! Message interrupts under masks. What a function owes its driver is kept as a history of its
own: a vector signalled while masked is owed until it is sent or the device lowers it. The pending
bits of the function follow that history, and replaying them sends what is owed, except where the
capability is switched off while something is pending. -/
namespace Rvvm.Pci
open List Runs
open BitVec hiding not_and
open Bool hiding not_and
open Function (update update_eq_self update_self)

variable {σ : Type} (ctrl : Intc σ)

/-! What the registers of a function let through. -/

def PciFunc.vectorMasked (func : PciFunc) (v : Nat) : Bool := (func.msix (v * 4 + 3)).getLsbD 0

/-- MSI-X is enabled and neither the function nor the vector is masked. -/
def PciFunc.vectorOpen (func : PciFunc) (v : Nat) : Bool :=
  func.msixEnabled && !func.msixMasked && !func.vectorMasked v

def PciFunc.vectorMessage (func : PciFunc) (v : Nat) : BitVec 64 × Reg :=
  (func.msix (v * 4 + 1) ++ func.msix (v * 4), func.msix (v * 4 + 2))

def PciFunc.vectorPending (func : PciFunc) (v : Nat) : Bool := (func.msix pciMsixTblSize).getLsbD v

/-- MSI has a single vector, which every interrupt of the device shares. -/
def PciFunc.msiOpen (func : PciFunc) : Bool := func.msiEnabled && decide (func.msiMask = 0)

def PciFunc.msiMessage (func : PciFunc) : BitVec 64 × Reg :=
  (func.msiAddrHigh ++ func.msiAddrLow, func.msiData)

/-! Runs. -/

inductive MsiEvent
  | signal (raise : Bool) (v : Nat)
  | lower (v : Nat)
  | table (reg : Fin 128) (val : Reg)
  | msixControl (val : Reg)
  | msiControl (val : Reg)
  | msiMask (val : Reg)

def MsiEvent.apply (addr : Nat) (bus : PciBus σ) : MsiEvent → PciBus σ
  | .signal true v => pciRaiseIrq ctrl bus addr v
  | .signal false v => pciSendIrq ctrl bus addr v
  | .lower v => pciLowerIrq ctrl bus addr v
  | .table reg val =>
    match bus.funcs addr with
    | some func => pciMsixBarWrite bus addr func reg val
    | none => bus
  | .msixControl val => pciBusWrite ctrl bus (addr * 0x1000 + 0xB0) val
  | .msiControl val => pciBusWrite ctrl bus (addr * 0x1000 + 0x90) val
  | .msiMask val => pciBusWrite ctrl bus (addr * 0x1000 + 0xA0) val

/-- A bus and what the function at an address owes. -/
structure MsiRun (σ : Type) where
  bus : PciBus σ
  owed : Nat → Bool
  owedMsi : Bool

/-- The message that goes out with the event itself. -/
def MsiEvent.direct (func : PciFunc) : MsiEvent → List (BitVec 64 × Reg)
  | .signal _ v =>
    if func.msixEnabled then
      if v < pciMsixMaxIrqs ∧ func.vectorOpen v = true then [func.vectorMessage v] else []
    else if func.msiOpen then [func.msiMessage] else []
  | _ => []

/-- The vectors owed once the event has happened, before anything is sent for it. -/
def MsiEvent.owedAfter (func : PciFunc) (owed : Nat → Bool) : MsiEvent → Nat → Bool
  | .signal _ v =>
    if func.msixEnabled = true ∧ v < pciMsixMaxIrqs ∧ func.vectorOpen v = false then
      update owed v true
    else owed
  | .lower v => update owed v false
  | _ => owed

def MsiEvent.owedMsiAfter (func : PciFunc) (owedMsi : Bool) : MsiEvent → Bool
  | .signal _ _ => owedMsi || (!func.msixEnabled && func.msiEnabled && !func.msiOpen)
  | .lower _ => false
  | _ => owedMsi

/-- What is owed is sent as soon as the registers let it through, and is owed no longer then. -/
def msiStep (addr : Nat) (run : MsiRun σ) (event : MsiEvent) : MsiRun σ :=
  let bus := event.apply ctrl addr run.bus
  match run.bus.funcs addr, bus.funcs addr with
  | some func, some func' =>
    { bus := bus
      owed := fun v => event.owedAfter func run.owed v && !func'.vectorOpen v
      owedMsi := event.owedMsiAfter func run.owedMsi && !func'.msiOpen }
  | _, _ => { run with bus := bus }

def dueVectors (func : PciFunc) (owed : Nat → Bool) : List Nat :=
  (range pciMsixMaxIrqs).filter fun v => owed v && func.vectorOpen v

/-- The event sends its own message and everything owed that the registers now let through, each
once, and nothing else. -/
def Delivered (addr : Nat) (run : MsiRun σ) (event : MsiEvent) : Prop :=
  let bus := event.apply ctrl addr run.bus
  match run.bus.funcs addr, bus.funcs addr with
  | some func, some func' =>
    bus.sent = run.bus.sent ++ (event.direct func ++
      (dueVectors func' (event.owedAfter func run.owed)).map func'.vectorMessage ++
      if (event.owedMsiAfter func run.owedMsi && func'.msiOpen) = true then [func'.msiMessage] else [])
  | _, _ => False

/-- A pending vector is lowered while the capability that holds it is in charge; MSI-X is not enabled
with a pending vector unmasked, but by lifting the function mask; MSI is not unmasked while it is
disabled with its vector pending. -/
def MsiOk (addr : Nat) (run : MsiRun σ) (event : MsiEvent) : Prop :=
  ∀ func, run.bus.funcs addr = some func →
    match event with
    | .lower v =>
      (v < pciMsixMaxIrqs → func.vectorPending v = true → func.msixEnabled = true) ∧
        (func.msiPending ≠ 0 → func.msixEnabled = false ∧ func.msiEnabled = true)
    | .msixControl val =>
      func.msixEnabled = false → func.msixMasked = false → val.getLsbD 31 = true → val.getLsbD 30 = false →
        ∀ v < pciMsixMaxIrqs, func.vectorPending v = true → func.vectorMasked v = true
    | .msiMask val => val.getLsbD 0 = false → func.msiPending ≠ 0 → func.msiEnabled = true
    | _ => True

/-! The pending bits follow what is owed. -/

/-- The pending registers hold what is owed, and bus mastering is on. -/
structure Tracked (func : PciFunc) (owed : Nat → Bool) (owedMsi : Bool) : Prop where
  master : func.busMaster = true
  control : func.msixControl &&& 0xC0000000 = func.msixControl
  pending : ∀ v < pciMsixMaxIrqs, func.vectorPending v = owed v
  beyond : ∀ v, owed v = true → v < pciMsixMaxIrqs
  msiPending : func.msiPending = if owedMsi then 1 else 0
  msiMasked : owedMsi = true → func.msiMask ≠ 0

/-- Moreover nothing that is owed could be sent. -/
structure Synced (func : PciFunc) (owed : Nat → Bool) (owedMsi : Bool) : Prop
    extends Tracked func owed owedMsi where
  quiet : ∀ v, owed v = true → func.vectorOpen v = false

section Tracked

variable {func : PciFunc} {owed : Nat → Bool} {owedMsi : Bool}

section
variable (tracked : Tracked func owed owedMsi)
include tracked

theorem Tracked.msi_closed : (owedMsi && func.msiOpen) = false := by
  cases held : owedMsi with
  | false => rfl
  | true =>
    have masked := tracked.msiMasked held
    rw [PciFunc.msiOpen, decide_eq_false masked, Bool.and_false, Bool.and_false]

theorem Tracked.msi_kept : (owedMsi && !func.msiOpen) = owedMsi := by
  have closed := tracked.msi_closed
  cases held : owedMsi with
  | false => rfl
  | true =>
    rw [held, Bool.true_and] at closed
    rw [closed]
    rfl

theorem Tracked.control_eq_iff :
    func.msixControl = 0x80000000 ↔ func.msixEnabled = true ∧ func.msixMasked = false := by
  constructor
  · intro same
    rw [PciFunc.msixEnabled, PciFunc.msixMasked, same]
    decide
  · rintro ⟨enabled, unmasked⟩
    rw [← tracked.control]
    apply eq_of_getLsbD_eq
    intro i bound
    rw [PciFunc.msixEnabled] at enabled
    rw [PciFunc.msixMasked, getLsbD_eq_getElem (by decide)] at unmasked
    interval_cases i <;> simp [enabled, unmasked]

end

theorem Synced.due_eq_nil (synced : Synced func owed owedMsi) : dueVectors func owed = [] := by
  apply filter_eq_nil_iff.mpr
  intro v _ both
  obtain ⟨held, opened⟩ := and_eq_true_iff.mp both
  rw [synced.quiet v held] at opened
  cases opened

theorem Synced.owed_kept (synced : Synced func owed owedMsi) :
    (fun v => owed v && !func.vectorOpen v) = owed := by
  funext v
  cases held : owed v with
  | false => rfl
  | true =>
    rw [synced.quiet v held]
    rfl

end Tracked

/-! Replaying the pending bits. -/

section Replay

variable {bus : PciBus σ} {addr : Nat} {func : PciFunc}

theorem PciBus.setFunc_funcs (bus : PciBus σ) (addr : Nat) (func : PciFunc) :
    (bus.setFunc addr func).funcs addr = some func := update_self ..

theorem PciBus.setFunc_sent (bus : PciBus σ) (addr : Nat) (func : PciFunc) :
    (bus.setFunc addr func).sent = bus.sent := rfl

section
variable (func : PciFunc)

theorem PciFunc.setMsix_of_ne {reg other : Nat} (val : Reg) (differ : other ≠ reg) :
    (func.setMsix reg val).msix other = func.msix other := Function.update_of_ne differ ..

theorem PciFunc.setMsix_self (reg : Nat) (val : Reg) :
    (func.setMsix reg val).msix reg = val := update_self ..

theorem PciFunc.setMsix_setMsix (reg : Nat) (val val' : Reg) :
    (func.setMsix reg val).setMsix reg val' = func.setMsix reg val' := by
  simp [PciFunc.setMsix]

theorem PciFunc.setPending_vectorOpen (val : Reg) (v : Nat) :
    (func.setMsix pciMsixTblSize val).vectorOpen v = func.vectorOpen v := by
  rw [PciFunc.vectorOpen, PciFunc.vectorMasked, func.setMsix_of_ne val (by rw [pciMsixTblSize]; omega)]
  rfl

theorem PciFunc.setPending_vectorMessage (val : Reg) {v : Nat} (bound : v < pciMsixMaxIrqs) :
    (func.setMsix pciMsixTblSize val).vectorMessage v = func.vectorMessage v := by
  rw [pciMsixMaxIrqs] at bound
  have kept {reg : Nat} (low : reg < 128) : (func.setMsix pciMsixTblSize val).msix reg = func.msix reg :=
    func.setMsix_of_ne val low.ne
  rw [PciFunc.vectorMessage, kept (by omega), kept (by omega), kept (by omega)]
  rfl

end

theorem pciFuncSendMsixIrq_eq (bus : PciBus σ) (addr : Nat) (func : PciFunc) {v : Nat}
    (enabled : func.msixEnabled = true) (master : func.busMaster = true) (bound : v < pciMsixMaxIrqs) :
    pciFuncSendMsixIrq bus addr func v =
      some (if func.vectorOpen v then { bus with sent := bus.sent ++ [func.vectorMessage v] }
        else bus.setFunc addr (func.setMsix pciMsixTblSize
          (func.msix pciMsixTblSize ||| (1#32 <<< v)))) := by
  have word : pciMsixTblSize + v / 32 = pciMsixTblSize := by
    rw [pciMsixMaxIrqs] at bound
    omega
  have bit : v % 32 = v := Nat.mod_eq_of_lt bound
  rw [pciFuncSendMsixIrq, if_pos enabled, if_pos (by rw [master, decide_eq_true bound]; rfl), word, bit,
    PciFunc.vectorOpen, enabled]
  rfl

theorem getLsbD_bit {v i : Nat} (bound : i < 32) : (1#32 <<< v).getLsbD i = decide (i = v) := by
  rw [getLsbD_shiftLeft, getLsbD_one, Bool.eq_iff_iff]
  simp only [Bool.and_eq_true, decide_eq_true_eq, Bool.not_eq_true', decide_eq_false_iff_not]
  omega

theorem getLsbD_setBit (word : Reg) {v i : Nat} (bound : i < 32) :
    (word ||| (1#32 <<< v)).getLsbD i = (word.getLsbD i || decide (i = v)) := by
  rw [getLsbD_or, getLsbD_bit bound]

def replayBit (addr : Nat) (pending : Reg) (bus : PciBus σ) (bit : Nat) : PciBus σ :=
  if pending.getLsbD bit then
    match bus.funcs addr with
    | some func => (pciFuncSendMsixIrq bus addr func bit).getD bus
    | none => bus
  else bus

/-- After the first bits, the open vectors among them were sent and the others are pending again. -/
theorem replay_prefix (pending : Reg) (attached : bus.funcs addr = some func)
    (empty : func.msix pciMsixTblSize = 0)
    (enabled : func.msixEnabled = true) (master : func.busMaster = true) (k : Nat) (bound : k ≤ pciMsixMaxIrqs) :
    ∃ rest : Reg,
      ((range k).foldl (replayBit addr pending) bus).funcs addr = some (func.setMsix pciMsixTblSize rest) ∧
      ((range k).foldl (replayBit addr pending) bus).sent = bus.sent ++
        ((range k).filter fun v => pending.getLsbD v && func.vectorOpen v).map func.vectorMessage ∧
      ∀ v < pciMsixMaxIrqs, rest.getLsbD v = (decide (v < k) && pending.getLsbD v && !func.vectorOpen v) := by
  induction k with
  | zero =>
    refine ⟨0, ?_, (append_nil _).symm, ?_⟩
    · have same : func.setMsix pciMsixTblSize 0 = func := by
        rw [← empty, PciFunc.setMsix, update_eq_self]
      rw [same]
      exact attached
    · intro v _
      simp
  | succ k ih =>
    obtain ⟨rest, now, sent, left⟩ := ih (Nat.le_of_succ_le bound)
    rw [range_succ, foldl_append, filter_append]
    generalize (range k).foldl (replayBit addr pending) bus = before at now sent ⊢
    simp only [foldl_cons, foldl_nil, replayBit, now]
    have upto (v : Nat) : decide (v < k + 1) = (decide (v < k) || decide (v = k)) := by
      rw [← decide_or]
      exact decide_eq_decide.mpr Nat.lt_succ_iff_lt_or_eq
    by_cases held : pending.getLsbD k = true
    · rw [if_pos held, pciFuncSendMsixIrq_eq before addr (func.setMsix pciMsixTblSize rest) enabled master bound,
        func.setPending_vectorOpen rest, func.setPending_vectorMessage rest bound, Option.getD_some]
      by_cases opened : func.vectorOpen k = true
      · rw [if_pos opened]
        refine ⟨rest, now, ?_, ?_⟩
        · simp [sent, held, opened]
        · intro v small
          rw [left v small, upto]
          by_cases same : v = k
          · subst same
            simp [opened]
          · simp [same]
      · rw [if_neg opened]
        refine ⟨rest ||| (1#32 <<< k), ?_, ?_, ?_⟩
        · rw [PciBus.setFunc_funcs, PciFunc.setMsix_setMsix, PciFunc.setMsix_self]
        · rw [PciBus.setFunc_sent]
          simpa [opened] using sent
        · intro v small
          rw [getLsbD_setBit rest small, left v small, upto]
          by_cases same : v = k
          · subst same
            simp [opened, held]
          · simp [same]
    · rw [if_neg held]
      refine ⟨rest, now, ?_, ?_⟩
      · simpa [held] using sent
      · intro v small
        rw [left v small, upto]
        by_cases same : v = k
        · subst same
          simp [held]
        · simp [same]

theorem mem_range_map_congr {f g : Nat → BitVec 64 × Reg} {p q : Nat → Bool} {n : Nat}
    (holds : ∀ v < n, p v = q v) (same : ∀ v < n, f v = g v) :
    ((range n).filter p).map f = ((range n).filter q).map g := by
  rw [filter_congr fun v member => holds v (mem_range.mp member)]
  apply map_congr_left
  intro v member
  exact same v (mem_range.mp (mem_filter.mp member).1)

theorem pciFuncUpdateMsixMask_enabled (attached : bus.funcs addr = some func)
    (unmasked : func.msixControl = 0x80000000) (enabled : func.msixEnabled = true)
    (master : func.busMaster = true) :
    ∃ rest : Reg,
      (pciFuncUpdateMsixMask bus addr func).funcs addr = some (func.setMsix pciMsixTblSize rest) ∧
      (pciFuncUpdateMsixMask bus addr func).sent = bus.sent ++
        (dueVectors func func.vectorPending).map func.vectorMessage ∧
      ∀ v < pciMsixMaxIrqs, rest.getLsbD v = (func.vectorPending v && !func.vectorOpen v) := by
  rw [pciFuncUpdateMsixMask, if_pos unmasked]
  by_cases none : func.msix pciMsixTblSize = 0
  · have clear (v : Nat) : func.vectorPending v = false := by
      rw [PciFunc.vectorPending, none]
      exact getLsbD_zero
    refine ⟨0, ?_, ?_, ?_⟩
    · rw [if_neg (not_not_intro none), attached, ← none, PciFunc.setMsix, update_eq_self]
    · simp [none, dueVectors, clear]
    · intro v _
      simp [clear]
  · obtain ⟨rest, now, sent, left⟩ := replay_prefix (func.msix pciMsixTblSize)
      (bus.setFunc_funcs addr (func.setMsix pciMsixTblSize 0)) (func.setMsix_self _ _)
      enabled master pciMsixMaxIrqs le_rfl
    rw [if_pos none]
    refine ⟨rest, ?_, ?_, ?_⟩
    · rw [PciFunc.setMsix_setMsix] at now
      exact now
    · refine sent.trans (congrArg (bus.sent ++ ·) (mem_range_map_congr ?_ ?_))
      · intro v _
        rw [func.setPending_vectorOpen, PciFunc.vectorPending]
      · intro v bound
        exact func.setPending_vectorMessage 0 bound
    · intro v bound
      rw [left v bound, func.setPending_vectorOpen, decide_eq_true bound, Bool.true_and, PciFunc.vectorPending]

/-- Updating the masks sends what is owed and can be sent, and keeps the rest pending. -/
theorem pciFuncUpdateMsixMask_sends {owed : Nat → Bool} {owedMsi : Bool} (tracked : Tracked func owed owedMsi)
    (attached : bus.funcs addr = some func) :
    ∃ func', (pciFuncUpdateMsixMask bus addr func).funcs addr = some func' ∧
      (pciFuncUpdateMsixMask bus addr func).sent = bus.sent ++ (dueVectors func' owed).map func'.vectorMessage ∧
      Synced func' (fun v => owed v && !func'.vectorOpen v) owedMsi := by
  by_cases unmasked : func.msixControl = 0x80000000
  · obtain ⟨rest, now, sent, left⟩ := pciFuncUpdateMsixMask_enabled attached unmasked
      (tracked.control_eq_iff.mp unmasked).1 tracked.master
    refine ⟨_, now, sent.trans (congrArg (bus.sent ++ ·) (mem_range_map_congr ?_ ?_)), ?_⟩
    · intro v bound
      rw [tracked.pending v bound, func.setPending_vectorOpen]
    · intro v bound
      exact (func.setPending_vectorMessage rest bound).symm
    · refine ⟨⟨tracked.master, tracked.control, ?_, ?_, tracked.msiPending, tracked.msiMasked⟩, ?_⟩
      · intro v bound
        rw [PciFunc.vectorPending, PciFunc.setMsix_self, left v bound, tracked.pending v bound,
          func.setPending_vectorOpen]
      · intro v held
        exact tracked.beyond v (and_eq_true_iff.mp held).1
      · intro v held
        obtain ⟨_, closed⟩ := and_eq_true_iff.mp held
        rw [not_eq_true'] at closed
        exact closed
  · have closed (v : Nat) : func.vectorOpen v = false := by
      rw [tracked.control_eq_iff, not_and] at unmasked
      cases enabled : func.msixEnabled with
      | false => simp [PciFunc.vectorOpen, enabled]
      | true => simp [PciFunc.vectorOpen, unmasked enabled]
    have synced : Synced func owed owedMsi := ⟨tracked, fun v _ => closed v⟩
    rw [pciFuncUpdateMsixMask, if_neg unmasked]
    refine ⟨func, attached, ?_, ?_⟩
    · rw [synced.due_eq_nil, map_nil, append_nil]
    · rw [synced.owed_kept]
      exact synced

end Replay

/-! One step. -/

/-- The function after the event follows what is owed, and the messages were the right ones. -/
structure Settles (addr : Nat) (run : MsiRun σ) (event : MsiEvent) (func func' : PciFunc) : Prop where
  attached : (event.apply ctrl addr run.bus).funcs addr = some func'
  sent : (event.apply ctrl addr run.bus).sent = run.bus.sent ++ (event.direct func ++
    (dueVectors func' (event.owedAfter func run.owed)).map func'.vectorMessage ++
    if (event.owedMsiAfter func run.owedMsi && func'.msiOpen) = true then [func'.msiMessage] else [])
  synced : Synced func' (fun v => event.owedAfter func run.owed v && !func'.vectorOpen v)
    (event.owedMsiAfter func run.owedMsi && !func'.msiOpen)

section Step

variable {addr : Nat} {run : MsiRun σ} {event : MsiEvent} {func func' : PciFunc} {bus : PciBus σ}
  {owed : Nat → Bool} {owedMsi : Bool}

/-- Nothing becomes due where the new registers still hold back all that is owed. -/
theorem settles_of_bus (applied : event.apply ctrl addr run.bus = bus) (now : bus.funcs addr = some func')
    (sent : bus.sent = run.bus.sent ++ event.direct func)
    (synced : Synced func' (event.owedAfter func run.owed) (event.owedMsiAfter func run.owedMsi)) :
    ∃ func', Settles ctrl addr run event func func' := by
  subst applied
  refine ⟨func', now, ?_, ?_⟩
  · rw [sent, synced.due_eq_nil, synced.msi_closed, map_nil, append_nil, if_neg nofun,
      append_nil]
  · rw [synced.owed_kept, synced.msi_kept]
    exact synced

theorem settles_of_write (silent : event.direct func = [])
    (applied : event.apply ctrl addr run.bus = bus.setFunc addr func') (sent : bus.sent = run.bus.sent)
    (synced : Synced func' (event.owedAfter func run.owed) (event.owedMsiAfter func run.owedMsi)) :
    ∃ func', Settles ctrl addr run event func func' := by
  refine settles_of_bus ctrl applied (PciBus.setFunc_funcs ..) ?_ synced
  rw [silent, append_nil]
  exact sent

theorem settles_of_update (silent : event.direct func = [])
    (applied : event.apply ctrl addr run.bus = pciFuncUpdateMsixMask bus addr func')
    (sent : bus.sent = run.bus.sent) (written : bus.funcs addr = some func')
    (tracked : Tracked func' (event.owedAfter func run.owed) (event.owedMsiAfter func run.owedMsi)) :
    ∃ func'', Settles ctrl addr run event func func'' := by
  obtain ⟨func'', attached, messages, synced⟩ := pciFuncUpdateMsixMask_sends tracked written
  refine ⟨func'', ⟨by rw [applied, attached], ?_, ?_⟩⟩
  · rw [applied, messages, sent, silent, synced.msi_closed, if_neg nofun, nil_append,
      append_nil]
  · rw [synced.msi_kept]
    exact synced

theorem Synced.other (synced : Synced func owed owedMsi) (status control : Reg) :
    Synced { func with status := status, msiControl := control } owed owedMsi :=
  ⟨⟨synced.master, synced.control, synced.pending, synced.beyond, synced.msiPending, synced.msiMasked⟩,
    synced.quiet⟩

/-- One pending bit and what is owed for its vector are replaced together. -/
theorem Synced.setVector (synced : Synced func owed owedMsi) {v : Nat} {word : Reg} {held : Bool}
    (bits : ∀ w < 32, word.getLsbD w = if w = v then held else (func.msix pciMsixTblSize).getLsbD w)
    (may : held = true → v < pciMsixMaxIrqs ∧ func.vectorOpen v = false) :
    Synced (func.setMsix pciMsixTblSize word) (update owed v held) owedMsi := by
  have sound {w : Nat} (now : update owed v held w = true) :
      w < pciMsixMaxIrqs ∧ func.vectorOpen w = false := by
    by_cases same : w = v
    · subst same
      rw [update_self] at now
      exact may now
    · rw [Function.update_of_ne same] at now
      exact ⟨synced.beyond w now, synced.quiet w now⟩
  refine ⟨⟨synced.master, synced.control, ?_, fun w now => (sound now).1, synced.msiPending, synced.msiMasked⟩, ?_⟩
  · intro w small
    rw [PciFunc.vectorPending, PciFunc.setMsix_self, bits w small, ← PciFunc.vectorPending,
      synced.pending w small, Function.update_apply]
  · intro w now
    rw [func.setPending_vectorOpen]
    exact (sound now).2

theorem written_control (func : PciFunc) (val : Reg) :
    ({ func with msixControl := val &&& 0xC0000000 } : PciFunc).msixEnabled = val.getLsbD 31 ∧
    ({ func with msixControl := val &&& 0xC0000000 } : PciFunc).msixMasked = val.getLsbD 30 := by
  simp only [PciFunc.msixEnabled, PciFunc.msixMasked, getLsbD_and]
  exact ⟨and_true _, and_true _⟩

theorem mask_bit (val : Reg) : val &&& 0x00000001 = if val.getLsbD 0 then 1 else 0 := by
  apply eq_of_getLsbD_eq
  intro i bound
  rw [getLsbD_and]
  cases i with
  | zero => split <;> simp_all
  | succ i =>
    have high : (1 : Reg).getLsbD (i + 1) = false := by
      simp
    rw [high, Bool.and_false]
    split
    · exact high.symm
    · exact getLsbD_zero.symm

/-- A function with the mask and the pending bit of MSI written. -/
def PciFunc.setMsi (func : PciFunc) (mask pending : Reg) : PciFunc :=
  { func with msiMask := mask, msiPending := pending }

theorem Synced.setMsi {mask : Reg} (synced : Synced func owed owedMsi) (held : Bool)
    (masked : held = true → mask ≠ 0) : Synced (func.setMsi mask (if held then 1 else 0)) owed held :=
  ⟨⟨synced.master, synced.control, synced.pending, synced.beyond, rfl, masked⟩, synced.quiet⟩

theorem pciFuncUpdateMsiMask_eq (bus : PciBus σ) (addr : Nat) (func : PciFunc) (mask : Reg) :
    pciFuncUpdateMsiMask bus addr { func with msiMask := mask } =
      if func.msiPending ≠ 0 then
        (pciFuncSendMsiIrq (bus.setFunc addr (func.setMsi mask (func.msiPending &&& mask))) addr
          (func.setMsi mask (func.msiPending &&& mask))).getD
            (bus.setFunc addr (func.setMsi mask (func.msiPending &&& mask)))
      else bus.setFunc addr (func.setMsi mask (func.msiPending &&& mask)) := rfl

theorem bit_and_bit (a b : Bool) :
    (if a then (1 : Reg) else 0) &&& (if b then 1 else 0) = if a && b then 1 else 0 := by
  cases a <;> cases b <;> rfl

/-! The events of a function whose registers follow what is owed. -/

variable (attached : run.bus.funcs addr = some func) (synced : Synced func run.owed run.owedMsi)
include attached

theorem signal_apply (raise : Bool) (v : Nat) :
    (MsiEvent.signal raise v).apply ctrl addr run.bus =
      ((pciFuncSendMsixIrq run.bus addr func v).orElse fun _ => pciFuncSendMsiIrq run.bus addr func).getD
        (pciFuncSendIntxIrq ctrl run.bus addr func raise) := by
  cases raise with
  | false => simp [MsiEvent.apply, pciSendIrq, attached]
  | true => simp [MsiEvent.apply, pciRaiseIrq, attached]

theorem pciBusWrite_page (val : Reg) :
    pciBusWrite ctrl run.bus (addr * 0x1000 + 0xB0) val =
      (if func.msixMasked && !val.getLsbD 30 then
        pciFuncUpdateMsixMask (run.bus.setFunc addr { func with msixControl := val &&& 0xC0000000 }) addr
          { func with msixControl := val &&& 0xC0000000 }
      else run.bus.setFunc addr { func with msixControl := val &&& 0xC0000000 }) ∧
    pciBusWrite ctrl run.bus (addr * 0x1000 + 0x90) val =
      run.bus.setFunc addr { func with msiControl := val &&& 0x00010000 } ∧
    pciBusWrite ctrl run.bus (addr * 0x1000 + 0xA0) val =
      pciFuncUpdateMsiMask run.bus addr { func with msiMask := val &&& 0x00000001 } := by
  have page (reg : Nat) (small : reg < 0x1000) : (addr * 0x1000 + reg) / 0x1000 = addr := by omega
  have offset (reg : Nat) (small : reg < 0x1000) (aligned : reg % 4 = 0) :
      (addr * 0x1000 + reg) % 0x1000 / 4 * 4 = reg := by omega
  refine ⟨?_, ?_, ?_⟩
  · simp [pciBusWrite, page 0xB0 (by decide), attached]
  · simp [pciBusWrite, page 0x90 (by decide), attached]
  · simp [pciBusWrite, page 0xA0 (by decide), attached]

include synced

theorem signal_msix_settles (raise : Bool) (v : Nat) (enabled : func.msixEnabled = true) :
    ∃ func', Settles ctrl addr run (.signal raise v) func func' := by
  have applied := signal_apply ctrl attached raise v
  have keeps : (MsiEvent.signal raise v).owedMsiAfter func run.owedMsi = run.owedMsi := by
    simp [MsiEvent.owedMsiAfter, enabled]
  by_cases bound : v < pciMsixMaxIrqs
  · rw [pciFuncSendMsixIrq_eq run.bus addr func enabled synced.master bound] at applied
    by_cases opened : func.vectorOpen v = true
    · rw [if_pos opened] at applied
      refine settles_of_bus ctrl applied attached ?_ ?_
      · rw [MsiEvent.direct, if_pos enabled, if_pos ⟨bound, opened⟩]
        rfl
      · rw [keeps, MsiEvent.owedAfter, if_neg fun cond => by simp [opened] at cond]
        exact synced
    · have closed := eq_false_iff.mpr opened
      rw [if_neg opened] at applied
      refine settles_of_write ctrl ?_ applied rfl ?_
      · rw [MsiEvent.direct, if_pos enabled, if_neg fun cond => opened cond.2]
      · rw [keeps, MsiEvent.owedAfter, if_pos ⟨enabled, bound, closed⟩]
        refine synced.setVector (fun w small => ?_) fun _ => ⟨bound, closed⟩
        rw [getLsbD_setBit _ small]
        by_cases same : w = v <;> simp [same]
  · have ignored : pciFuncSendMsixIrq run.bus addr func v = some run.bus := by
      rw [pciFuncSendMsixIrq, if_pos enabled, decide_eq_false bound, Bool.and_false, if_neg Bool.false_ne_true]
    rw [ignored] at applied
    refine settles_of_bus ctrl applied attached ?_ ?_
    · rw [MsiEvent.direct, if_pos enabled, if_neg fun cond => bound cond.1, append_nil]
      rfl
    · rw [keeps, MsiEvent.owedAfter, if_neg fun cond => bound cond.2.1]
      exact synced

theorem signal_settles (raise : Bool) (v : Nat) : ∃ func', Settles ctrl addr run (.signal raise v) func func' := by
  by_cases enabled : func.msixEnabled = true
  · exact signal_msix_settles ctrl attached synced raise v enabled
  have disabled := eq_false_iff.mpr enabled
  have applied := signal_apply ctrl attached raise v
  have keeps : (MsiEvent.signal raise v).owedAfter func run.owed = run.owed := by
    rw [MsiEvent.owedAfter, if_neg fun cond => enabled cond.1]
  rw [pciFuncSendMsixIrq, if_neg enabled] at applied
  by_cases msi : func.msiEnabled = true
  · rw [pciFuncSendMsiIrq, if_pos msi, if_pos synced.master] at applied
    by_cases unmasked : func.msiMask = 0
    · have opened : func.msiOpen = true := by
        rw [PciFunc.msiOpen, msi, decide_eq_true unmasked]
        rfl
      rw [if_pos unmasked] at applied
      refine settles_of_bus ctrl applied attached ?_ ?_
      · rw [MsiEvent.direct, if_neg enabled, if_pos opened]
        rfl
      · rw [keeps, MsiEvent.owedMsiAfter, opened, Bool.not_true, Bool.and_false, Bool.or_false]
        exact synced
    · have closed : func.msiOpen = false := by
        rw [PciFunc.msiOpen, decide_eq_false unmasked, Bool.and_false]
      rw [if_neg unmasked] at applied
      refine settles_of_write ctrl ?_ applied rfl ?_
      · rw [MsiEvent.direct, if_neg enabled, closed, if_neg Bool.false_ne_true]
      · rw [keeps, MsiEvent.owedMsiAfter, closed, disabled, msi, Bool.not_false, Bool.and_self, Bool.and_self,
          Bool.or_true]
        exact synced.setMsi true fun _ => unmasked
  · have silent : (MsiEvent.signal raise v).direct func = [] := by
      simp [MsiEvent.direct, disabled, PciFunc.msiOpen, msi]
    have same : (MsiEvent.signal raise v).owedMsiAfter func run.owedMsi = run.owedMsi := by
      simp [MsiEvent.owedMsiAfter, msi]
    rw [pciFuncSendMsiIrq, if_neg msi] at applied
    change _ = pciFuncSendIntxIrq ctrl run.bus addr func raise at applied
    rw [pciFuncSendIntxIrq] at applied
    split at applied
    · refine settles_of_bus ctrl applied (PciBus.setFunc_funcs ..) ?_ ?_
      · rw [silent, append_nil]
        rfl
      · rw [keeps, same]
        exact synced.other pciStatusIntx func.msiControl
    · refine settles_of_bus ctrl applied attached ?_ ?_
      · rw [silent, append_nil]
      · rw [keeps, same]
        exact synced

theorem lower_settles (v : Nat) (ok : MsiOk addr run (.lower v)) :
    ∃ func', Settles ctrl addr run (.lower v) func func' := by
  obtain ⟨inCharge, msiInCharge⟩ := ok func attached
  have applied : (MsiEvent.lower v).apply ctrl addr run.bus =
      ((pciFuncLowerMsixIrq run.bus addr func v).orElse fun _ => pciFuncLowerMsiIrq run.bus addr func).getD
        (pciFuncLowerIntxIrq ctrl run.bus addr func) := by
    simp [MsiEvent.apply, pciLowerIrq, attached]
  have free (clear : run.owed v = false) : (MsiEvent.lower v).owedAfter func run.owed = run.owed := by
    rw [MsiEvent.owedAfter, ← clear, update_eq_self]
  have msiFree (idle : ¬ (func.msixEnabled = false ∧ func.msiEnabled = true)) : run.owedMsi = false := by
    by_contra held
    rw [not_eq_false] at held
    apply idle
    apply msiInCharge
    rw [synced.msiPending, held]
    decide
  by_cases enabled : func.msixEnabled = true
  · have msiClear := msiFree fun idle => by rw [enabled] at idle; cases idle.1
    rw [pciFuncLowerMsixIrq, if_pos enabled] at applied
    by_cases bound : v < pciMsixMaxIrqs
    · have word : pciMsixTblSize + v / 32 = pciMsixTblSize := by
        rw [pciMsixMaxIrqs] at bound
        omega
      rw [if_pos bound, word, Nat.mod_eq_of_lt (show v < 32 from bound)] at applied
      refine settles_of_write ctrl rfl applied rfl ?_
      rw [MsiEvent.owedMsiAfter, ← msiClear]
      refine synced.setVector (fun w small => ?_) (fun held => by cases held)
      rw [getLsbD_and, getLsbD_not, getLsbD_bit small]
      by_cases same : w = v <;> simp [same, small]
    · have clear : run.owed v = false := eq_false_iff.mpr fun held => bound (synced.beyond v held)
      rw [if_neg bound] at applied
      refine settles_of_bus ctrl applied attached (append_nil _).symm ?_
      rw [free clear, MsiEvent.owedMsiAfter, ← msiClear]
      exact synced
  · have clear : run.owed v = false := by
      rw [eq_false_iff]
      intro held
      have bound := synced.beyond v held
      exact enabled (inCharge bound ((synced.pending v bound).trans held))
    rw [pciFuncLowerMsixIrq, if_neg enabled] at applied
    by_cases msi : func.msiEnabled = true
    · rw [pciFuncLowerMsiIrq, if_pos msi] at applied
      refine settles_of_write ctrl rfl applied rfl ?_
      rw [free clear]
      exact synced.setMsi false (fun held => by cases held)
    · rw [pciFuncLowerMsiIrq, if_neg msi] at applied
      refine settles_of_bus ctrl applied (PciBus.setFunc_funcs ..) (append_nil _).symm ?_
      rw [free clear, MsiEvent.owedMsiAfter, ← msiFree fun idle => msi idle.2]
      exact synced.other 0 func.msiControl

theorem table_settles (reg : Fin 128) (val : Reg) :
    ∃ func', Settles ctrl addr run (.table reg val) func func' := by
  have apart : pciMsixTblSize ≠ reg.val := reg.isLt.ne'
  have tracked : Tracked (func.setMsix reg val) run.owed run.owedMsi := by
    refine ⟨synced.master, synced.control, ?_, synced.beyond, synced.msiPending, synced.msiMasked⟩
    intro v bound
    rw [PciFunc.vectorPending, func.setMsix_of_ne val apart]
    exact synced.pending v bound
  have applied : (MsiEvent.table reg val).apply ctrl addr run.bus = pciMsixBarWrite run.bus addr func reg val := by
    simp [MsiEvent.apply, attached]
  rw [pciMsixBarWrite] at applied
  split at applied
  · exact settles_of_update ctrl rfl applied rfl (PciBus.setFunc_funcs ..) tracked
  · rename_i unchanged
    refine settles_of_write ctrl rfl applied rfl ⟨tracked, ?_⟩
    intro v held
    have closed := synced.quiet v held
    by_cases own : v * 4 + 3 = reg.val
    · have kept : func.vectorMasked v = true → val.getLsbD 0 = true := by
        intro masked
        by_contra lifted
        rw [PciFunc.vectorMasked, own] at masked
        exact unchanged ⟨reg.isLt, by omega, eq_false_iff.mpr lifted, masked⟩
      simp only [PciFunc.vectorOpen, and_eq_false_iff, not_eq_false'] at closed ⊢
      refine closed.imp_right fun masked => ?_
      rw [PciFunc.vectorMasked, own, PciFunc.setMsix_self]
      exact kept masked
    · rw [PciFunc.vectorOpen, PciFunc.vectorMasked, func.setMsix_of_ne val own]
      exact closed

theorem msixControl_settles (val : Reg) (ok : MsiOk addr run (.msixControl val)) :
    ∃ func', Settles ctrl addr run (.msixControl val) func func' := by
  have enabling := ok func attached
  obtain ⟨enabled, masked⟩ := written_control func val
  have tracked : Tracked { func with msixControl := val &&& 0xC0000000 } run.owed run.owedMsi :=
    ⟨synced.master, by rw [BitVec.and_assoc, BitVec.and_self], synced.pending, synced.beyond, synced.msiPending,
      synced.msiMasked⟩
  have applied : (MsiEvent.msixControl val).apply ctrl addr run.bus = _ := (pciBusWrite_page ctrl attached val).1
  split at applied
  · exact settles_of_update ctrl rfl applied rfl (PciBus.setFunc_funcs ..) tracked
  · rename_i unlifted
    refine settles_of_write ctrl rfl applied rfl ⟨tracked, ?_⟩
    intro v held
    have bound := synced.beyond v held
    rw [PciFunc.vectorOpen, enabled, masked]
    by_cases opening : val.getLsbD 31 = true ∧ val.getLsbD 30 = false
    · have unmasked : func.msixMasked = false := by
        rw [eq_false_iff]
        intro before
        exact unlifted (by rw [before, opening.2]; rfl)
      have vectorMasked : func.vectorMasked v = true := by
        by_cases before : func.msixEnabled = true
        · simpa [PciFunc.vectorOpen, before, unmasked] using synced.quiet v held
        · exact enabling (eq_false_iff.mpr before) unmasked opening.1 opening.2 v bound
            ((synced.pending v bound).trans held)
      rw [show ({ func with msixControl := val &&& 0xC0000000 } : PciFunc).vectorMasked v = true from vectorMasked,
        Bool.not_true, Bool.and_false]
    · have shut : (val.getLsbD 31 && !val.getLsbD 30) = false := by simpa using opening
      rw [shut, Bool.false_and]

theorem msiControl_settles (val : Reg) : ∃ func', Settles ctrl addr run (.msiControl val) func func' := by
  refine settles_of_write ctrl rfl (pciBusWrite_page ctrl attached val).2.1 rfl ?_
  exact synced.other func.status _

theorem msiMask_settles (val : Reg) (ok : MsiOk addr run (.msiMask val)) :
    ∃ func', Settles ctrl addr run (.msiMask val) func func' := by
  have lifting : val.getLsbD 0 = false → func.msiPending ≠ 0 → func.msiEnabled = true := ok func attached
  have applied : (MsiEvent.msiMask val).apply ctrl addr run.bus = _ := (pciBusWrite_page ctrl attached val).2.2
  have nonzero {held : Bool} : (if held then (1 : Reg) else 0) ≠ 0 ↔ held = true := by cases held <;> decide
  rw [pciFuncUpdateMsiMask_eq, synced.msiPending, mask_bit, bit_and_bit] at applied
  rw [synced.msiPending, nonzero] at lifting
  simp only [nonzero] at applied
  cases held : run.owedMsi with
  | false =>
    have owes : (MsiEvent.msiMask val).owedMsiAfter func run.owedMsi = false := held
    rw [held, if_neg Bool.false_ne_true] at applied
    refine settles_of_write ctrl rfl applied rfl ?_
    rw [owes]
    exact synced.setMsi false (fun held => by cases held)
  | true =>
    have owes : (MsiEvent.msiMask val).owedMsiAfter func run.owedMsi = true := held
    rw [held, if_pos rfl, Bool.true_and] at applied
    cases bit : val.getLsbD 0 with
    | true =>
      rw [bit, if_pos rfl] at applied
      have still : Synced (func.setMsi 1 1) run.owed true := synced.setMsi true fun _ => by decide
      have resent : ∃ bus : PciBus σ, (MsiEvent.msiMask val).apply ctrl addr run.bus = bus ∧
          bus.funcs addr = some (func.setMsi 1 1) ∧ bus.sent = run.bus.sent := by
        refine ⟨_, applied, ?_⟩
        rw [pciFuncSendMsiIrq]
        split
        · rw [if_pos still.master, if_neg (still.msiMasked rfl)]
          exact ⟨PciBus.setFunc_funcs .., rfl⟩
        · exact ⟨PciBus.setFunc_funcs .., rfl⟩
      obtain ⟨bus, applied, now, sent⟩ := resent
      refine settles_of_bus ctrl applied now (sent.trans (append_nil _).symm) ?_
      rw [owes]
      exact still
    | false =>
      have enabled := lifting bit held
      have closed : Synced (func.setMsi 0 0) run.owed false := synced.setMsi false (fun held => by cases held)
      have opened : (func.setMsi 0 0).msiOpen = true := by
        rw [PciFunc.msiOpen, show (func.setMsi 0 0).msiEnabled = true from enabled]
        rfl
      rw [bit, if_neg Bool.false_ne_true, pciFuncSendMsiIrq, if_pos
        (show (func.setMsi 0 0).msiEnabled = true from enabled), if_pos closed.master] at applied
      refine ⟨func.setMsi 0 0, ⟨by rw [applied]; exact PciBus.setFunc_funcs .., ?_, ?_⟩⟩
      · have due : dueVectors (func.setMsi 0 0) ((MsiEvent.msiMask val).owedAfter func run.owed) = [] :=
          closed.due_eq_nil
        rw [applied, owes, opened, due]
        rfl
      · rw [owes, opened]
        exact closed.owed_kept.symm ▸ closed

/-- An admitted event sends what it should, and the registers keep following what is owed. -/
theorem event_settles (event : MsiEvent) (ok : MsiOk addr run event) :
    ∃ func', Settles ctrl addr run event func func' := by
  cases event with
  | signal raise v => exact signal_settles ctrl attached synced raise v
  | lower v => exact lower_settles ctrl attached synced v ok
  | table reg val => exact table_settles ctrl attached synced reg val
  | msixControl val => exact msixControl_settles ctrl attached synced val ok
  | msiControl val => exact msiControl_settles ctrl attached synced val
  | msiMask val => exact msiMask_settles ctrl attached synced val ok

end Step

/-! Runs. -/

/-- The function is there and its registers follow what is owed. -/
def InSync (addr : Nat) (run : MsiRun σ) : Prop :=
  ∃ func, run.bus.funcs addr = some func ∧ Synced func run.owed run.owedMsi

theorem Settles.step {addr : Nat} {run : MsiRun σ} {event : MsiEvent} {func func' : PciFunc}
    (attached : run.bus.funcs addr = some func) (settles : Settles ctrl addr run event func func') :
    InSync addr (msiStep ctrl addr run event) ∧ Delivered ctrl addr run event := by
  constructor
  · refine ⟨func', ?_, ?_⟩
    · simp [msiStep, attached, settles.attached]
    · simp only [msiStep, attached, settles.attached]
      exact settles.synced
  · simp only [Delivered, attached, settles.attached]
    exact settles.sent

structure Unowing (func : PciFunc) : Prop where
  master : func.busMaster = true
  control : func.msixControl &&& 0xC0000000 = func.msixControl
  pending : func.msix pciMsixTblSize = 0
  msiPending : func.msiPending = 0

theorem Unowing.synced {func : PciFunc} (unowing : Unowing func) : Synced func (fun _ => false) false := by
  refine ⟨⟨unowing.master, unowing.control, ?_, nofun, unowing.msiPending, nofun⟩, nofun⟩
  intro v _
  rw [PciFunc.vectorPending, unowing.pending]
  exact getLsbD_zero

/-- In a run whose steps are admitted, every interrupt signalled while masked is sent once, at the
first moment it can be, and nothing is sent while masked. -/
theorem masked_delivered {addr : Nat} {bus : PciBus σ} {func : PciFunc} (attached : bus.funcs addr = some func)
    (unowing : Unowing func) {events : List MsiEvent}
    (ok : AllSteps (msiStep ctrl addr) (MsiOk addr) ⟨bus, fun _ => false, false⟩ events) :
    AllSteps (msiStep ctrl addr) (Delivered ctrl addr) ⟨bus, fun _ => false, false⟩ events := by
  have step (run : MsiRun σ) (event : MsiEvent) (sync : InSync addr run) (admitted : MsiOk addr run event) :
      InSync addr (msiStep ctrl addr run event) ∧ Delivered ctrl addr run event := by
    obtain ⟨func, attached, synced⟩ := sync
    obtain ⟨func', settles⟩ := event_settles ctrl attached synced event admitted
    exact settles.step ctrl attached
  exact AllSteps.entails (fun run event sync admitted => (step run event sync admitted).1)
    (fun run event sync admitted => (step run event sync admitted).2) ⟨func, attached, unowing.synced⟩ ok

def maskThenLift : List MsiEvent :=
  [.msixControl 0xC0000000, .signal true 3, .table 15 1, .msixControl 0x80000000, .table 15 0]

theorem masked_delivered_lift :
    (twoFuncs.bus.funcs 8 = some (pciAttachFunc (fun line => line.val + 1) 8 1) ∧
      Unowing (pciAttachFunc (fun line => line.val + 1) 8 1) ∧
      AllSteps (msiStep plicIntc 8) (MsiOk 8) ⟨twoFuncs.bus, fun _ => false, false⟩ maskThenLift) ∧
    AllSteps (msiStep plicIntc 8) (Delivered plicIntc 8) ⟨twoFuncs.bus, fun _ => false, false⟩ maskThenLift := by
  have unowing : Unowing (pciAttachFunc (fun line => line.val + 1) 8 1) := ⟨by decide, by decide, rfl, rfl⟩
  have ok : AllSteps (msiStep plicIntc 8) (MsiOk 8) ⟨twoFuncs.bus, fun _ => false, false⟩ maskThenLift := by
    refine ⟨?_, fun _ _ => trivial, fun _ _ => trivial, ?_, fun _ _ => trivial, trivial⟩
    · intro func found _ _ _ lifted
      cases lifted
    · intro func found disabled
      have before := congrArg (Option.map PciFunc.msixEnabled) found
      rw [Option.map_some, disabled] at before
      exact absurd before (by decide +kernel)
  exact ⟨⟨rfl, unowing, ok⟩, masked_delivered plicIntc rfl unowing ok⟩

def offThenOn : List MsiEvent :=
  [.msixControl 0xC0000000, .signal true 3, .msixControl 0, .msixControl 0x80000000]

def unmaskedWhileOff : List MsiEvent :=
  [.msiControl 0x10000, .msiMask 1, .signal true 0, .msiControl 0, .msiMask 0, .msiControl 0x10000]

def loweredWhileOff : List MsiEvent :=
  [.msixControl 0xC0000000, .signal true 3, .msixControl 0x40000000, .lower 3, .msixControl 0x80000000]

/-- A vector signalled under a mask is never sent when the capability is off while the mask is lifted,
and is sent although the device lowered it when the capability was off at that time. -/
theorem pending_mishandled :
    let start : MsiRun Plic.PlicDev := ⟨twoFuncs.bus, fun _ => false, false⟩
    ((final (msiStep plicIntc 8) start offThenOn).bus.sent = [] ∧
      ¬ AllSteps (msiStep plicIntc 8) (Delivered plicIntc 8) start offThenOn) ∧
    ((final (msiStep plicIntc 8) start unmaskedWhileOff).bus.sent = [] ∧
      ¬ AllSteps (msiStep plicIntc 8) (Delivered plicIntc 8) start unmaskedWhileOff) ∧
    (final (msiStep plicIntc 8) start loweredWhileOff).bus.sent = [(0, 0)] ∧
      ¬ AllSteps (msiStep plicIntc 8) (Delivered plicIntc 8) start loweredWhileOff := by
  intro start
  refine ⟨⟨by decide +kernel, ?_⟩, ⟨by decide +kernel, ?_⟩, by decide +kernel, ?_⟩
  · intro delivered
    exact absurd (congrArg length delivered.2.2.2.1) (by decide +kernel)
  · intro delivered
    exact absurd (congrArg length delivered.2.2.2.2.2.1) (by decide +kernel)
  · intro delivered
    exact absurd (congrArg length delivered.2.2.2.2.1) (by decide +kernel)

end Rvvm.Pci
