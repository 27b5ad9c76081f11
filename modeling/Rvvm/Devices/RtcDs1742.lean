import Mathlib.Tactic

/-! The registers of the DS1742 clock against the Gregorian calendar. -/
namespace Rvvm.Rtc

def bcdConvU8 (val : BitVec 8) : BitVec 8 := val % 10 ||| (val / 10) <<< 4

structure Regs where
  century : BitVec 8
  seconds : BitVec 8
  minutes : BitVec 8
  hours : BitVec 8
  wday : BitVec 8
  mday : BitVec 8
  month : BitVec 8
  year : BitVec 8
  deriving DecidableEq

/-- The registers as `rtc_ds1742_wr` stores them. -/
def Regs.store (century sec min hour wday mday mon year : Nat) : Regs :=
  let wr (val : Nat) := bcdConvU8 (BitVec.ofNat 8 val)
  ⟨wr century, wr sec, wr min, wr hour, wr wday, wr mday, wr mon, wr year⟩

/-- The locals are `uint32_t`; none of them wraps before the year 9999 ends. -/
def rtcDs1742UpdateRegs (unixtime : Nat) : Regs :=
  let sec := unixtime % 60
  let min := unixtime / 60 % 60
  let hour := unixtime / 60 / 60 % 24
  let days := unixtime / 60 / 60 / 24 + 719468
  let wday := (days + 2) % 7 + 1
  let era := days / 146097
  let doe := days - era * 146097
  let coe := doe / 36524
  let lde := doe / 1460 - coe
  let doel := doe - lde
  let year := (doel + 59) / 365 + era * 400
  let doy := doel % 365
  let mmf := (5 * doy + 2) / 153
  let mday := doy - (153 * mmf + 2) / 5 + 1
  let mon := if mmf < 10 then mmf + 3 else mmf - 9
  .store (year / 100) sec min hour wday mday mon (year % 100)

/-! The calendar. -/

def isLeap (year : Nat) : Bool := year % 4 = 0 && (year % 100 ≠ 0 || year % 400 = 0)

def daysInMonth (year month : Nat) : Nat :=
  if month = 2 then if isLeap year then 29 else 28
  else if month ∈ [4, 6, 9, 11] then 30
  else 31

def daysInYear (year : Nat) : Nat := if isLeap year then 366 else 365

/-- A moment of the years 1970 to 9999. -/
structure Utc where
  year : Nat
  month : Nat
  day : Nat
  hour : Fin 24
  minute : Fin 60
  second : Fin 60
  years : 1970 ≤ year ∧ year ≤ 9999
  months : 1 ≤ month ∧ month ≤ 12
  days : 1 ≤ day ∧ day ≤ daysInMonth year month

variable (u : Utc)

/-- Days since 1 January 1970. -/
def Utc.dayNumber : Nat :=
  ((List.range (u.year - 1970)).map fun y => daysInYear (1970 + y)).sum +
    ((List.range (u.month - 1)).map fun m => daysInMonth u.year (m + 1)).sum + (u.day - 1)

def Utc.unixtime : Nat := ((u.dayNumber * 24 + u.hour) * 60 + u.minute) * 60 + u.second

/-- The first day was a Thursday; Sunday is 1. -/
def Utc.weekday : Nat := (u.dayNumber + 4) % 7 + 1

def Utc.regs : Regs :=
  .store (u.year / 100) u.second u.minute u.hour u.weekday u.day u.month (u.year % 100)

theorem Utc.unixtime_div : u.unixtime / 60 / 60 / 24 = u.dayNumber := by
  unfold Utc.unixtime
  omega

theorem bcdConvU8_digit : ∀ n < 10, bcdConvU8 (BitVec.ofNat 8 n) = BitVec.ofNat 8 n := by decide

/-- At no moment are the registers right: the day of the week is always that of the day before. -/
theorem rtc_never_right : rtcDs1742UpdateRegs u.unixtime ≠ u.regs := by
  intro right
  have wday : bcdConvU8 (BitVec.ofNat 8 ((u.unixtime / 60 / 60 / 24 + 719468 + 2) % 7 + 1)) =
      bcdConvU8 (BitVec.ofNat 8 u.weekday) := congrArg Regs.wday right
  rw [u.unixtime_div, bcdConvU8_digit _ (by omega), bcdConvU8_digit _ (by unfold Utc.weekday; omega)] at wday
  have same := congrArg BitVec.toNat wday
  rw [BitVec.toNat_ofNat, BitVec.toNat_ofNat, Utc.weekday] at same
  omega

def leapDay : Utc := ⟨2024, 2, 29, 12, 0, 0, by decide, by decide, by decide⟩

/-- 29 February 2024 was a Thursday; it is shown as the 28th, and as a Wednesday. -/
theorem rtc_leapDay :
    leapDay.unixtime = 1709208000 ∧ leapDay.regs = ⟨0x20, 0, 0, 0x12, 5, 0x29, 2, 0x24⟩ ∧
      rtcDs1742UpdateRegs leapDay.unixtime = ⟨0x20, 0, 0, 0x12, 4, 0x28, 2, 0x24⟩ ∧
      rtcDs1742UpdateRegs leapDay.unixtime ≠ leapDay.regs := by
  decide +kernel

end Rvvm.Rtc
