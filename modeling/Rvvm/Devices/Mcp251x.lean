import Rvvm.Library.DeferredLine
import Rvvm.Library.Runs

/-! The MCP251x CAN controller: SPI sessions of a hart and frames from the CAN segment. The level of the
interrupt is computed under the lock, and read again and applied to the line after the lock is dropped. -/
namespace Rvvm.Mcp251x
open DeferredLine List Runs
open Function (comp_apply comp_update update)

def opReset : BitVec 8 := 0xC0
def opRead : BitVec 8 := 0x03
def opWrite : BitVec 8 := 0x02
def opBitModify : BitVec 8 := 0x05
def opReadRxbSidh (n : Nat) : BitVec 8 := BitVec.ofNat 8 (0x90 + n * 4)
def opLoadTxbSidh (n : Nat) : BitVec 8 := BitVec.ofNat 8 (0x40 + n * 2)

def regCanstat : Nat := 0x0E
def regCanctrl : Nat := 0x0F
def regCaninte : Nat := 0x2B
def regCanintf : Nat := 0x2C
def regTxbctrl (n : Nat) : Nat := 0x30 + n * 0x10
def regTxbsidh (n : Nat) : Nat := regTxbctrl n + 1
def regRxbctrl (n : Nat) : Nat := 0x60 + n * 0x10
def regRxbsidh (n : Nat) : Nat := regRxbctrl n + 1

/-- The length of a transmit or receive buffer: identifier, length and eight data bytes. -/
def bufDataLen : Nat := 13

structure CanFrame where
  canId : BitVec 32
  dlc : BitVec 8
  data : List (BitVec 8)
  deriving DecidableEq

structure Dev where
  canBus : Bool
  regs : Nat → BitVec 8
  irqLevel : Bool
  csLow : Bool
  cmd : BitVec 8
  byteIdx : BitVec 32
  addr : BitVec 8
  modMask : BitVec 8
  bufIdx : Fin 3

def Dev.setReg (m : Dev) (reg : Nat) (val : BitVec 8) : Dev :=
  { m with regs := update m.regs reg val }

def Dev.setRegs (m : Dev) (reg : Nat) (buf : Nat → BitVec 8) : Dev :=
  { m with regs := fun a => if reg ≤ a ∧ a < reg + bufDataLen then buf (a - reg) else m.regs a }

def updateCanstatOpmod (m : Dev) : Dev :=
  m.setReg regCanstat (m.regs regCanstat &&& ~~~ 0xE0 ||| m.regs regCanctrl &&& 0xE0)

def mcpResetState (m : Dev) : Dev :=
  { m with regs := update (update (fun _ => 0) regCanctrl 0x87) regCanstat 0x80 }

def Dev.wanted (m : Dev) : Bool := m.regs regCanintf &&& m.regs regCaninte != 0

def mcpRecomputeIrq (m : Dev) : Dev × Bool :=
  if m.wanted ≠ m.irqLevel then ({ m with irqLevel := m.wanted }, true) else (m, false)

def mcpPickRxb (m : Dev) : Option Nat :=
  if m.regs regCanintf &&& 0x01 = 0 then some 0
  else if m.regs (regRxbctrl 0) &&& 0x04 ≠ 0 ∧ m.regs regCanintf &&& 0x02 = 0 then some 1
  else none

def mcpBufToFrame (buf : Nat → BitVec 8) : CanFrame :=
  let at32 (i : Nat) : BitVec 32 := (buf i).setWidth 32
  let sid := at32 0 <<< 3 ||| at32 1 >>> 5
  let eid := (at32 1 &&& 0x03) <<< 16 ||| at32 2 <<< 8 ||| at32 3
  let id := if buf 1 &&& 0x08 ≠ 0 then sid <<< 18 ||| eid ||| 0x80000000 else sid
  let dlc := if buf 4 &&& 0x0F > 8 then 8 else buf 4 &&& 0x0F
  { canId := if buf 4 &&& 0x40 ≠ 0 then id ||| 0x40000000 else id
    dlc := dlc
    data := (range dlc.toNat).map fun i => buf (5 + i) }

def mcpFrameToRxbuf (f : CanFrame) : Nat → BitVec 8 :=
  let ext := f.canId &&& 0x80000000 ≠ 0
  let rtr := f.canId &&& 0x40000000 ≠ 0
  let id := f.canId &&& 0x1FFFFFFF
  let sid := if ext then id >>> 18 &&& 0x7FF else f.canId &&& 0x7FF
  let eid := id &&& 0x3FFFF
  let len := if f.dlc > 8 then 8 else f.dlc
  fun i =>
    match i with
    | 0 => (sid >>> 3).setWidth 8
    | 1 =>
      let sidl := ((sid &&& 0x07) <<< 5).setWidth 8
      if ext then sidl ||| 0x08 ||| (eid >>> 16 &&& 0x03).setWidth 8 else if rtr then sidl ||| 0x10 else sidl
    | 2 => if ext then (eid >>> 8).setWidth 8 else 0
    | 3 => if ext then eid.setWidth 8 else 0
    | 4 => (if ext ∧ rtr then 0x40 else 0) ||| len &&& 0x0F
    | i + 5 => if i < len.toNat then f.data.getD i 0 else 0

def Dev.mode (m : Dev) : BitVec 8 := m.regs regCanctrl &&& 0xE0

def Dev.receive (m : Dev) (n : Nat) (buf : Nat → BitVec 8) : Dev :=
  let m := m.setRegs (regRxbsidh n) buf
  m.setReg regCanintf (m.regs regCanintf ||| if n = 0 then 0x01 else 0x02)

/-- Where the frame of transmit buffer `n` goes: a receive buffer, or the frames kept for the segment. -/
def Dev.transmit (m : Dev) (pending : List CanFrame) (n : Nat) : Dev × List CanFrame :=
  let buf (i : Nat) := m.regs (regTxbsidh n + i)
  if m.mode = 0x40 then
    match mcpPickRxb m with
    | some rxn => (m.receive rxn buf, pending)
    | none => (m, pending)
  else if m.mode = 0x00 ∧ m.canBus = true ∧ pending.length < 3 then (m, pending ++ [mcpBufToFrame buf])
  else (m, pending)

def mcpFireTxb (m : Dev) (pending : List CanFrame) (n : Nat) : Dev × List CanFrame :=
  let (m, pending) := m.transmit pending n
  let m := m.setReg (regTxbctrl n) (m.regs (regTxbctrl n) &&& ~~~ 0x08)
  (m.setReg regCanintf (m.regs regCanintf ||| 0x04 <<< n), pending)

def mcpFinalizeSession (m : Dev) : Dev × List CanFrame :=
  if m.cmd = opReset then (mcpResetState m, [])
  else if m.cmd = opReadRxbSidh 0 then (m.setReg regCanintf (m.regs regCanintf &&& ~~~ 0x01), [])
  else if m.cmd = opReadRxbSidh 1 then (m.setReg regCanintf (m.regs regCanintf &&& ~~~ 0x02), [])
  else if m.cmd &&& 0xF8 = 0x80 then
    [0, 1, 2].foldl (fun acc i => if m.cmd.getLsbD i then mcpFireTxb acc.1 acc.2 i else acc) (m, [])
  else (m, [])

/-- What a call does under the lock; `irqChanged` tells it to apply the level, `frames` to broadcast. -/
structure Section where
  dev : Dev
  irqChanged : Bool
  frames : List CanFrame
  out : BitVec 8

/-- A section that does not look at the level. -/
def Section.plain (m : Dev) : Section := ⟨m, false, [], 0xFF⟩

/-- A section that ends with `mcp_recompute_irq`. -/
def Section.recompute (m : Dev) (frames : List CanFrame) : Section :=
  ⟨(mcpRecomputeIrq m).1, (mcpRecomputeIrq m).2, frames, 0xFF⟩

def mcp251xSelect (m : Dev) (asserted : Bool) : Section :=
  if asserted then .recompute { m with csLow := true, byteIdx := 0, cmd := 0xFF } []
  else if m.csLow then
    let (m, frames) := mcpFinalizeSession { m with csLow := false }
    .recompute m frames
  else .recompute m []

def mcp251xCanRx (m : Dev) (frame : CanFrame) : Section :=
  if m.mode ≠ 0x80 ∧ m.mode ≠ 0x20 then
    match mcpPickRxb m with
    | some rxn => .recompute (m.receive rxn (mcpFrameToRxbuf frame)) []
    | none => .recompute m []
  else .plain m

/-- A register written by `OP_WRITE` or `OP_BIT_MODIFY`. -/
def Dev.write (m : Dev) (a : Nat) (val : BitVec 8) : Section :=
  let m := m.setReg a val
  if a = regCanctrl then
    let m := updateCanstatOpmod m
    .plain (m.setReg regCanctrl (m.regs regCanctrl &&& ~~~ 0x10))
  else if a = regCaninte ∨ a = regCanintf then .recompute m []
  else .plain m

def Dev.argument (m : Dev) (i : BitVec 32) (tx : BitVec 8) : Section :=
  let next := ((m.addr.setWidth 32 + (i - 1)) &&& 0x7F).toNat
  if m.cmd = opRead then
    if i = 0 then .plain { m with addr := tx } else { Section.plain m with out := m.regs next }
  else if m.cmd = opWrite then
    if i = 0 then .plain { m with addr := tx } else m.write next tx
  else if m.cmd = opBitModify then
    let a := (m.addr &&& 0x7F).toNat
    if i = 0 then .plain { m with addr := tx }
    else if i = 1 then .plain { m with modMask := tx }
    else if i = 2 then m.write a (m.regs a &&& ~~~ m.modMask ||| tx &&& m.modMask)
    else .plain m
  else if m.cmd = opReadRxbSidh 0 ∨ m.cmd = opReadRxbSidh 1 then
    if i.toNat < bufDataLen then { Section.plain m with out := m.regs ((regRxbsidh m.bufIdx + i.toNat) % 0x80) }
    else .plain m
  else if m.cmd = opLoadTxbSidh 0 ∨ m.cmd = opLoadTxbSidh 1 ∨ m.cmd = opLoadTxbSidh 2 then
    if i.toNat < bufDataLen then .plain (m.setReg ((regTxbsidh m.bufIdx + i.toNat) % 0x80) tx) else .plain m
  else .plain m

def mcp251xTransfer (m : Dev) (tx : BitVec 8) : Section :=
  if m.byteIdx = 0 then
    let bufIdx : Fin 3 :=
      if tx = opLoadTxbSidh 0 ∨ tx = opReadRxbSidh 0 then 0
      else if tx = opLoadTxbSidh 1 ∨ tx = opReadRxbSidh 1 then 1
      else if tx = opLoadTxbSidh 2 then 2
      else m.bufIdx
    .plain { m with cmd := tx, bufIdx := bufIdx, byteIdx := 1 }
  else { m with byteIdx := m.byteIdx + 1 }.argument (m.byteIdx - 1) tx

/-! The step relation. -/

/-- The hart's SPI sessions, the CAN thread, and a frame of the hart's broadcast that is echoed to it. -/
inductive Actor
  | hart
  | can
  | echo
  deriving DecidableEq

instance : Fintype Actor := ⟨{.hart, .can, .echo}, by intro a; cases a <;> decide⟩

/-- Where a call stands after its critical section: `mcp_apply_irq`, then the broadcast of its frames. -/
inductive Phase
  | idle
  | apply (frames : List CanFrame)
  | line (high : Bool) (frames : List CanFrame)
  deriving DecidableEq

structure State where
  dev : Dev
  line : Bool
  phase : Actor → Phase
  sent : List CanFrame

inductive Step
  | select (asserted : Bool)
  | transfer (tx : BitVec 8)
  | canRx (actor : Actor) (frame : CanFrame)
  | run (actor : Actor)

def State.enter (s : State) (actor : Actor) (sec : Section) : State :=
  if s.phase actor = .idle then
    if sec.irqChanged then { s with dev := sec.dev, phase := update s.phase actor (.apply sec.frames) }
    else { s with dev := sec.dev, sent := s.sent ++ sec.frames }
  else s

def step (s : State) : Step → State
  | .select asserted => s.enter .hart (mcp251xSelect s.dev asserted)
  | .transfer tx => s.enter .hart (mcp251xTransfer s.dev tx)
  | .canRx actor frame => s.enter actor (mcp251xCanRx s.dev frame)
  | .run actor =>
    match s.phase actor with
    | .idle => s
    | .apply frames => { s with phase := update s.phase actor (.line s.dev.irqLevel frames) }
    | .line high frames =>
      { s with line := high, phase := update s.phase actor .idle, sent := s.sent ++ frames }

def mcp251xAttach (canBus : Bool) : State where
  dev := mcpResetState ⟨canBus, fun _ => 0, false, false, 0, 0, 0, 0, 0⟩
  line := false
  phase := fun _ => .idle
  sent := []

def State.Quiet (s : State) : Prop := ∀ actor, s.phase actor = .idle

def State.Shows (s : State) : Prop := s.line = true ↔ s.dev.regs regCanintf &&& s.dev.regs regCaninte ≠ 0

instance (s : State) : Decidable s.Quiet := inferInstanceAs (Decidable (∀ _, _))

def Phase.owed : Phase → Owed
  | .idle => .nothing
  | .apply _ => .read
  | .line high _ => .set high

def State.owed (s : State) : Actor → Owed := Phase.owed ∘ s.phase

/-- A critical section is entered only when every level computed before is on the line. -/
def State.Orderly (s : State) : Step → Prop
  | .run _ => True
  | _ => s.Quiet

instance (s : State) (a : Step) : Decidable (s.Orderly a) := by
  cases a <;> unfold State.Orderly <;> infer_instance

/-! The level is right after every critical section. -/

/-- The section leaves the level right and tells exactly whether it changed it. -/
structure Section.Right (m : Dev) (sec : Section) : Prop where
  level : sec.dev.irqLevel = sec.dev.wanted
  changed : sec.irqChanged = (sec.dev.irqLevel != m.irqLevel)

theorem txb_ne {reg : Nat} (low : reg < 0x30) (n : Fin 3) {i : Nat} (inside : i < bufDataLen) :
    reg ≠ (regTxbsidh n + i) % 0x80 := by
  simp only [regTxbsidh, regTxbctrl, bufDataLen] at inside ⊢
  omega

section Sections
variable {m : Dev} (level : m.irqLevel = m.wanted)

theorem recompute_right {m' : Dev} (same : m'.irqLevel = m.irqLevel) (frames : List CanFrame) :
    (Section.recompute m' frames).Right m := by
  unfold Section.recompute mcpRecomputeIrq
  split
  case isTrue differs => exact ⟨rfl, (bne_iff_ne.mpr (same ▸ differs)).symm⟩
  case isFalse equal =>
    refine ⟨(not_not.mp equal).symm, ?_⟩
    rw [← same]
    exact (bne_self_eq_false _).symm

theorem setReg_wanted {a : Nat} (val : BitVec 8) (notEnable : regCaninte ≠ a) (notFlag : regCanintf ≠ a) :
    (m.setReg a val).wanted = m.wanted := by
  simp [Dev.wanted, Dev.setReg, Function.update_of_ne notEnable, Function.update_of_ne notFlag]

theorem mcpFireTxb_irqLevel (pending : List CanFrame) (n : Nat) :
    (mcpFireTxb m pending n).1.irqLevel = m.irqLevel := by
  have transmit : (m.transmit pending n).1.irqLevel = m.irqLevel := by
    unfold Dev.transmit
    split_ifs
    · split <;> rfl
    · rfl
    · rfl
  exact transmit

theorem mcpFinalizeSession_irqLevel : (mcpFinalizeSession m).1.irqLevel = m.irqLevel := by
  have each (acc : Dev × List CanFrame) (i : Nat) :
      (if m.cmd.getLsbD i then mcpFireTxb acc.1 acc.2 i else acc).1.irqLevel = acc.1.irqLevel := by
    split_ifs
    · exact mcpFireTxb_irqLevel _ _
    · rfl
  unfold mcpFinalizeSession
  split_ifs
  · rfl
  · rfl
  · rfl
  · rw [foldl_cons, foldl_cons, foldl_cons, foldl_nil, each, each, each]
  · rfl

theorem mcp251xSelect_right (asserted : Bool) : (mcp251xSelect m asserted).Right m := by
  have finalized : (mcpFinalizeSession { m with csLow := false }).1.irqLevel = m.irqLevel :=
    mcpFinalizeSession_irqLevel
  unfold mcp251xSelect
  split_ifs
  · exact recompute_right (by rfl) _
  · exact recompute_right finalized _
  · exact recompute_right rfl _

include level

theorem plain_right {m' : Dev} (same : m'.irqLevel = m.irqLevel) (wanted : m'.wanted = m.wanted) :
    (Section.plain m').Right m := by
  refine ⟨by rw [Section.plain, same, wanted, level], ?_⟩
  rw [Section.plain, same]
  exact (bne_self_eq_false _).symm

theorem mcp251xCanRx_right (frame : CanFrame) : (mcp251xCanRx m frame).Right m := by
  unfold mcp251xCanRx
  split_ifs
  · split
    · exact recompute_right (by rfl) _
    · exact recompute_right rfl _
  · exact plain_right level rfl rfl

theorem write_right (a : Nat) (val : BitVec 8) : (m.write a val).Right m := by
  unfold Dev.write
  split_ifs with control flags
  · refine plain_right level rfl ?_
    subst control
    rw [setReg_wanted _ (by decide) (by decide), updateCanstatOpmod, setReg_wanted _ (by decide) (by decide),
      setReg_wanted _ (by decide) (by decide)]
  · exact recompute_right (by rfl) _
  · obtain ⟨notEnable, notFlag⟩ := not_or.mp flags
    exact plain_right level rfl (setReg_wanted val (Ne.symm notEnable) (Ne.symm notFlag))

theorem argument_right (i : BitVec 32) (tx : BitVec 8) : (m.argument i tx).Right m := by
  have plain : (Section.plain m).Right m := plain_right level rfl rfl
  unfold Dev.argument
  split_ifs with read first write first modify first second third receive inside load inside
  · exact plain_right level rfl rfl
  · exact ⟨plain.level, plain.changed⟩
  · exact plain_right level rfl rfl
  · exact write_right level _ _
  · exact plain_right level rfl rfl
  · exact plain_right level rfl rfl
  · exact write_right level _ _
  · exact plain
  · exact ⟨plain.level, plain.changed⟩
  · exact plain
  · exact plain_right level rfl (setReg_wanted tx (txb_ne (by decide) _ inside) (txb_ne (by decide) _ inside))
  · exact plain
  · exact plain

theorem mcp251xTransfer_right (tx : BitVec 8) : (mcp251xTransfer m tx).Right m := by
  unfold mcp251xTransfer
  by_cases opcode : m.byteIdx = 0
  · rw [if_pos opcode]
    exact plain_right level rfl rfl
  · rw [if_neg opcode]
    have counted : ({ m with byteIdx := m.byteIdx + 1 } : Dev).irqLevel =
        Dev.wanted { m with byteIdx := m.byteIdx + 1 } := level
    exact ⟨(argument_right counted _ tx).level, (argument_right counted _ tx).changed⟩

end Sections

structure Inv (s : State) : Prop where
  level : s.dev.irqLevel = s.dev.wanted
  tracks : Tracks s.dev.irqLevel s.line s.owed

variable {s : State}

theorem Inv.enter (inv : Inv s) (quiet : s.Quiet) (actor : Actor) {sec : Section}
    (right : sec.Right s.dev) : Inv (s.enter actor sec) := by
  have none (p : Actor) : s.owed p = .nothing := by rw [State.owed, comp_apply, quiet p]; rfl
  have changed := right.changed
  unfold State.enter
  rw [if_pos (quiet actor)]
  split
  case isTrue flips =>
    refine ⟨right.level, ?_⟩
    rw [State.owed, comp_update]
    exact .of_alone (fun p _ => none p) nofun nofun
  case isFalse same =>
    rw [Bool.eq_false_iff.mpr same, eq_comm, bne_eq_false_iff_eq] at changed
    refine ⟨right.level, ?_⟩
    rw [changed]
    exact inv.tracks

theorem Inv.run (inv : Inv s) (actor : Actor) : Inv (step s (.run actor)) := by
  unfold step
  dsimp only
  split
  case h_1 => exact inv
  case h_2 frames phase =>
    refine ⟨inv.level, ?_⟩
    rw [State.owed, comp_update]
    exact inv.tracks.read (by rw [State.owed, comp_apply, phase]; rfl)
  case h_3 high frames phase =>
    refine ⟨inv.level, ?_⟩
    rw [State.owed, comp_update]
    exact inv.tracks.set (by rw [State.owed, comp_apply, phase]; rfl)

theorem Inv.step (inv : Inv s) (a : Step) (orderly : s.Orderly a) : Inv (Mcp251x.step s a) := by
  cases a with
  | select asserted => exact inv.enter orderly .hart (mcp251xSelect_right asserted)
  | transfer tx => exact inv.enter orderly .hart (mcp251xTransfer_right inv.level tx)
  | canRx actor frame => exact inv.enter orderly actor (mcp251xCanRx_right inv.level frame)
  | run actor => exact inv.run actor

theorem Inv.shows (inv : Inv s) (quiet : s.Quiet) : s.Shows := by
  have line := inv.tracks.calm fun actor => by rw [State.owed, comp_apply, quiet actor]; rfl
  rw [State.Shows, line, inv.level, Dev.wanted, bne_iff_ne]

theorem inv_mcp251xAttach (canBus : Bool) : Inv (mcp251xAttach canBus) where
  level := by simp [mcp251xAttach, mcpResetState, Dev.wanted, regCanintf, regCaninte, regCanctrl, regCanstat]
  tracks := .of_calm (fun _ => rfl) rfl

/-- In every run in which no critical section is entered between another one and its operation on the line, the
line shows whether an enabled interrupt is flagged whenever no call is in progress. -/
theorem line_run_shows (canBus : Bool) {steps : List Step}
    (orderly : AllSteps step State.Orderly (mcp251xAttach canBus) steps) :
    ∀ s ∈ visited step (mcp251xAttach canBus) steps, s.Quiet → s.Shows := by
  intro s reached quiet
  have keeps (s : State) (a : Step) (inv : Inv s) (orderly : s.Orderly a) : Inv (step s a) := inv.step a orderly
  exact (invariant keeps (inv_mcp251xAttach canBus) orderly s reached).shows quiet

/-- The hart enables the interrupt of the first receive buffer, turns to the normal mode and a frame comes in. -/
def received : List Step :=
  [.select true, .transfer opWrite, .transfer 0x2B, .transfer 0x01, .select false, .select true, .transfer opWrite,
    .transfer 0x0F, .transfer 0x00, .select false, .canRx .can ⟨0x123, 0, []⟩]

def cleared : List Step := [.select true, .transfer opWrite, .transfer 0x2C, .transfer 0x00]

theorem line_run_shows_received :
    let steps := received ++ [.run .can, .run .can]
    let s := final step (mcp251xAttach true) steps
    AllSteps step State.Orderly (mcp251xAttach true) steps ∧ s.Quiet ∧ s.line = true ∧ s.Shows := by
  intro steps s
  have orderly : AllSteps step State.Orderly (mcp251xAttach true) steps := by decide +kernel
  have quiet : s.Quiet := by decide +kernel
  exact ⟨orderly, quiet, by decide +kernel, line_run_shows true orderly _ (final_mem_visited _ _) quiet⟩

/-- The hart has read the level to apply when a further frame raises it: the line is lowered last. -/
theorem lowered_while_flagged :
    let s := final step (mcp251xAttach true) (received ++ [.run .can, .run .can] ++ cleared ++
      [.run .hart, .canRx .can ⟨0x123, 0, []⟩, .run .can, .run .can, .run .hart])
    s.Quiet ∧ s.dev.regs regCanintf &&& s.dev.regs regCaninte = 1 ∧
      s.line = false ∧ ¬ s.Shows := by
  intro s
  have line : s.line = false := by decide +kernel
  have flagged : s.dev.regs regCanintf &&& s.dev.regs regCaninte = 1 := by decide +kernel
  refine ⟨by decide +kernel, flagged, line, fun shows => ?_⟩
  have raised := shows.mpr (by rw [flagged]; decide)
  cases raised

end Rvvm.Mcp251x
