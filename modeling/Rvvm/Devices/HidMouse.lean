import Rvvm.Library.Runs

/-! The relative mouse of `hid-mouse.c`: what the host moves and scrolls, against what the input
reports say. -/
namespace Rvvm.Hid
open Runs

def int32 (val : Int) : Int := val.bmod (2 ^ 32)

def int8 (val : Int) : Int := val.bmod (2 ^ 8)

/-- `hid_mouse_t` without the position and the buttons of the tablet. -/
structure HidMouse where
  tabletMode : Bool
  mouseDeltaX : Int
  mouseDeltaY : Int
  scrollY : Int
  btnsMouse : BitVec 8

def hidMouseReset : HidMouse := ⟨true, 0, 0, 0, 0⟩

/-- `input_report_mouse`, its axes as the signed bytes of the report descriptor. -/
structure Report where
  size : BitVec 16
  btns : BitVec 8
  x : Int
  y : Int
  wheel : Int
  deriving DecidableEq

def hidMouseReadReportMouse (m : HidMouse) : Report × HidMouse :=
  let deltaX := m.mouseDeltaX.tdiv 3
  let deltaY := m.mouseDeltaY.tdiv 3
  (⟨6, m.btnsMouse, int8 deltaX, int8 deltaY, int8 (-m.scrollY)⟩,
    { m with
      mouseDeltaX := int32 (m.mouseDeltaX - deltaX * 3)
      mouseDeltaY := int32 (m.mouseDeltaY - deltaY * 3)
      scrollY := 0 })

/-- The wheel byte of the tablet's report. -/
def hidMouseReadReportTablet (m : HidMouse) : Int × HidMouse := (int8 (-m.scrollY), { m with scrollY := 0 })

def hidMouseScroll (m : HidMouse) (offset : Int) : HidMouse := { m with scrollY := int32 (m.scrollY + offset) }

/-- The flag is `is_input_avail`. -/
def hidMouseMove (m : HidMouse) (x y : Int) : Bool × HidMouse :=
  let deltaX := int32 (m.mouseDeltaX + x)
  let deltaY := int32 (m.mouseDeltaY + y)
  (deltaX ≠ 0 ∨ deltaY ≠ 0 ∨ m.tabletMode,
    { m with tabletMode := false, mouseDeltaX := deltaX, mouseDeltaY := deltaY })

inductive Event
  | move (x y : Int)
  | scroll (offset : Int)
  | readMouse
  | readTablet

/-- The mouse, the sums of what was moved, the reports read, and the scroll offsets by their reader. -/
structure Trace where
  mouse : HidMouse
  movedX : Int
  movedY : Int
  reports : List Report
  scrolled : Int
  readByTablet : Int

def step (t : Trace) : Event → Trace
  | .move x y =>
    { t with mouse := (hidMouseMove t.mouse x y).2, movedX := t.movedX + x, movedY := t.movedY + y }
  | .scroll offset => { t with mouse := hidMouseScroll t.mouse offset, scrolled := t.scrolled + offset }
  | .readMouse =>
    { t with
      mouse := (hidMouseReadReportMouse t.mouse).2
      reports := (hidMouseReadReportMouse t.mouse).1 :: t.reports }
  | .readTablet =>
    { t with
      mouse := (hidMouseReadReportTablet t.mouse).2
      readByTablet := t.readByTablet + t.mouse.scrollY }

def start : Trace := ⟨hidMouseReset, 0, 0, [], 0, 0⟩

structure Conserved (t : Trace) : Prop where
  x : 3 * (t.reports.map (·.x)).sum + t.mouse.mouseDeltaX = t.movedX
  y : 3 * (t.reports.map (·.y)).sum + t.mouse.mouseDeltaY = t.movedY
  wheel : (t.reports.map (·.wheel)).sum = -(t.scrolled - t.mouse.scrollY - t.readByTablet)

/-- The counters stay within 32 bits, and what a report has to say fits into its bytes. -/
def Fits (t : Trace) : Event → Prop
  | .move x y => (t.mouse.mouseDeltaX + x).natAbs < 2 ^ 31 ∧ (t.mouse.mouseDeltaY + y).natAbs < 2 ^ 31
  | .scroll offset => (t.mouse.scrollY + offset).natAbs < 2 ^ 31
  | .readMouse => (-386 ≤ t.mouse.mouseDeltaX ∧ t.mouse.mouseDeltaX ≤ 383) ∧
      (-386 ≤ t.mouse.mouseDeltaY ∧ t.mouse.mouseDeltaY ≤ 383) ∧ -127 ≤ t.mouse.scrollY ∧ t.mouse.scrollY ≤ 128
  | .readTablet => True

theorem int32_eq {val : Int} (fits : val.natAbs < 2 ^ 31) : int32 val = val :=
  Int.bmod_eq_of_le (by omega) (by omega)

theorem int8_eq {val : Int} (low : -128 ≤ val) (high : val ≤ 127) : int8 val = val :=
  Int.bmod_eq_of_le (by omega) (by omega)

theorem tdiv_three {delta : Int} (low : -386 ≤ delta) (high : delta ≤ 383) :
    int8 (delta.tdiv 3) = delta.tdiv 3 ∧ int32 (delta - delta.tdiv 3 * 3) = delta - delta.tdiv 3 * 3 := by
  have least : -128 ≤ delta.tdiv 3 := Int.tdiv_le_tdiv (by decide) low
  have most : delta.tdiv 3 ≤ 127 := Int.tdiv_le_tdiv (by decide) high
  exact ⟨int8_eq least most, int32_eq (by omega)⟩

theorem step_conserved (t : Trace) (e : Event) (held : Conserved t) (fits : Fits t e) : Conserved (step t e) := by
  obtain ⟨x, y, wheel⟩ := held
  cases e with
  | move dx dy =>
    have deltaX : (hidMouseMove t.mouse dx dy).2.mouseDeltaX = t.mouse.mouseDeltaX + dx := int32_eq fits.1
    have deltaY : (hidMouseMove t.mouse dx dy).2.mouseDeltaY = t.mouse.mouseDeltaY + dy := int32_eq fits.2
    constructor <;> dsimp only [step]
    · omega
    · omega
    · exact wheel
  | scroll offset =>
    have scrollY : (hidMouseScroll t.mouse offset).scrollY = t.mouse.scrollY + offset := int32_eq fits
    refine ⟨x, y, ?_⟩
    dsimp only [step]
    omega
  | readMouse =>
    obtain ⟨⟨lowX, highX⟩, ⟨lowY, highY⟩, lowWheel, highWheel⟩ := fits
    obtain ⟨reportX, restX⟩ := tdiv_three lowX highX
    obtain ⟨reportY, restY⟩ := tdiv_three lowY highY
    have reportWheel : int8 (-t.mouse.scrollY) = -t.mouse.scrollY := int8_eq (by omega) (by omega)
    constructor <;> simp only [step, hidMouseReadReportMouse, List.map_cons, List.sum_cons] <;> omega
  | readTablet =>
    refine ⟨x, y, ?_⟩
    dsimp only [step, hidMouseReadReportTablet]
    omega

/-- Motion and scrolling are conserved along every run from a reset whose values fit. -/
theorem motion_conserved (events : List Event) (fits : AllSteps step Fits start events) :
    ∀ t ∈ visited step start events, Conserved t :=
  invariant step_conserved ⟨rfl, rfl, rfl⟩ fits

theorem motion_conserved_move : Conserved (final step start [.move 10 (-7), .readMouse]) := by
  refine motion_conserved [.move 10 (-7), .readMouse] ⟨?_, ?_, trivial⟩ _ (final_mem_visited _ _)
  all_goals exact ⟨by decide, by decide⟩

/-- A fast motion: of 1000 steps, 232 are accounted for. -/
theorem motion_truncated :
    let t := final step start [.move 1000 0, .readMouse]
    t.reports = [⟨6, 0, 77, 0, 0⟩] ∧ t.mouse.mouseDeltaX = 1 ∧ ¬ Conserved t :=
  ⟨by decide, by decide, fun held => absurd held.x (by decide)⟩

end Rvvm.Hid
