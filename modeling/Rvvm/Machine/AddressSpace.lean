import Rvvm.Devices.PciBars
import Rvvm.Machine.Regions

/-! Where the regions of a machine lie: the search for a free zone climbs from taken zone to taken zone, attaching
only accepts a free zone, and a base address register moves its region without looking. -/
namespace Rvvm.Mmio
open BitVec List Runs
open Option hiding filter_filter

/-- A stretch of addresses, empty for a placeholder. -/
structure Area where
  addr : Addr
  size : Addr

def Area.stop (area : Area) : Nat := area.addr.toNat + area.size.toNat

def Area.Fits (area : Area) : Prop := area.stop < 2 ^ 64

def Area.Meets (a b : Area) : Prop :=
  a.size ≠ 0 ∧ b.size ≠ 0 ∧ a.addr.toNat < b.stop ∧ b.addr.toNat < a.stop

def Region.area (region : Region) : Area := ⟨region.dev.addr, region.dev.size⟩

def MmioSpace.ram (s : MmioSpace) : Area := ⟨s.mem.addr, s.mem.size⟩

def MmioSpace.areas (s : MmioSpace) : List Area := s.ram :: s.devs.map Region.area

def FreeZone (s : MmioSpace) (zone : Area) : Prop := ∀ area ∈ s.areas, ¬ zone.Meets area

def MmioSpace.move (s : MmioSpace) (handle : Nat) (addr : Addr) : MmioSpace :=
  { s with devs := s.devs.map fun region =>
      if region.handle = handle then { region with dev := { region.dev with addr := addr } } else region }

inductive Op
  | zoneAuto (addr size : Addr)
  | attach (rounds : Nat) (desc : MmioDesc)
  | writeBar (handle : Nat) (func : Pci.BarFunc) (bar : Nat) (val : Pci.Reg)
  | remove (handle : Nat)

/-- Where a write to a base address register moves the region behind it. -/
def barTarget (func : Pci.BarFunc) (bar : Nat) (val : Pci.Reg) : Option Addr :=
  ((Pci.pciWriteBar func bar val).bar (Pci.pciEffectiveBar func bar)).map Pci.Bar.addr

/-- An attach that has not returned after its rounds has not changed the list. -/
def step (s : MmioSpace) : Op → MmioSpace
  | .zoneAuto _ _ => s
  | .attach rounds desc => ((rvvmAttachMmio rounds s desc).map Prod.fst).getD s
  | .writeBar handle func bar val =>
    match barTarget func bar val with
    | some addr => s.move handle addr
    | none => s
  | .remove handle => rvvmRemoveMmio s (s.devs.find? fun region => region.handle = handle)

/-- The regions are inside the address space, named apart, and no two of them or RAM meet. -/
structure Apart (s : MmioSpace) : Prop where
  fits : ∀ region ∈ s.devs, region.area.Fits
  ram : ∀ region ∈ s.devs, ¬ region.area.Meets s.ram
  pairwise : s.devs.Pairwise fun a b => a.handle ≠ b.handle ∧ ¬ a.area.Meets b.area
  known : ∀ region ∈ s.devs, region.handle < s.next

/-- The search ends, at or above the address asked for, with a zone that meets nothing; a free zone is kept. -/
def ZoneRight (s : MmioSpace) : Op → Prop
  | .zoneAuto addr size => ∃ rounds result, rvvmMmioZoneAuto rounds s addr size = some result ∧ addr ≤ result ∧
      FreeZone s ⟨result, size⟩ ∧ (FreeZone s ⟨addr, size⟩ → result = addr)
  | _ => True

/-- The zones asked for and the regions attached are inside the address space; past every region
above the address a page and the zone still fit, and no placeholder lies within a free zone asked
for; a region is moved to where it meets nothing. -/
def Orderly (s : MmioSpace) : Op → Prop
  | .zoneAuto addr size => Area.Fits ⟨addr, size⟩ ∧
      (∀ area ∈ s.areas, addr.toNat < area.stop → area.stop + 0xFFF + size.toNat < 2 ^ 64) ∧
      (FreeZone s ⟨addr, size⟩ → ∀ area ∈ s.areas, area.size = 0 →
        ¬ (addr.toNat < area.addr.toNat ∧ area.addr.toNat < addr.toNat + size.toNat))
  | .attach _ desc => Area.Fits ⟨desc.addr, desc.size⟩
  | .writeBar handle func bar val => ∀ addr, barTarget func bar val = some addr → ∀ region ∈ s.devs,
      region.handle = handle → Area.Fits ⟨addr, region.dev.size⟩ ∧ ¬ Area.Meets ⟨addr, region.dev.size⟩ s.ram ∧
        ∀ other ∈ s.devs, other.handle ≠ handle → ¬ Area.Meets ⟨addr, region.dev.size⟩ other.area
  | .remove _ => True

/-! ## The overlap check -/

theorem Area.Meets.symm {a b : Area} (meets : a.Meets b) : b.Meets a :=
  ⟨meets.2.1, meets.1, meets.2.2.2, meets.2.2.1⟩

theorem toNat_stop {area : Area} (fits : area.Fits) : (area.addr + area.size).toNat = area.stop := by
  exact Nat.mod_eq_of_lt fits

theorem overlapCheck_iff {zone area : Area} (zoneFits : zone.Fits) (areaFits : area.Fits) :
    rvvmMmioOverlapCheck zone.addr zone.size area.addr area.size = true ↔
      zone.addr.toNat < area.stop ∧ area.addr.toNat < zone.stop := by
  simp [rvvmMmioOverlapCheck, lt_def, toNat_stop zoneFits, toNat_stop areaFits]

theorem pageAfter_bounds {area : Area} (room : area.stop + 0xFFF < 2 ^ 64) :
    area.stop ≤ ((area.addr + area.size + 0xFFF) &&& ~~~ 0xFFF).toNat ∧
      ((area.addr + area.size + 0xFFF) &&& ~~~ 0xFFF).toNat ≤ area.stop + 0xFFF := by
  have fits : area.Fits := by
    unfold Area.Fits
    omega
  have sum : (area.addr + area.size + 0xFFF).toNat = area.stop + 0xFFF := by
    rw [toNat_add, toNat_stop fits]
    exact Nat.mod_eq_of_lt room
  generalize area.addr + area.size + 0xFFF = x at sum ⊢
  have low : (x &&& 0xFFF#64).toNat ≤ 0xFFF := (toNat_and ..).trans_le Nat.and_le_right
  have high := Align.toNat_and_not x 0xFFF#64
  change area.stop ≤ (x &&& ~~~ 0xFFF#64).toNat ∧ (x &&& ~~~ 0xFFF#64).toNat ≤ _
  omega

section Search
variable {s : MmioSpace} {addr size : Addr}

theorem zoneNext_none (free : rvvmMmioZoneNext s addr size = none) :
    ∀ area ∈ s.areas, rvvmMmioOverlapCheck addr size area.addr area.size = false := by
  unfold rvvmMmioZoneNext at free
  split at free
  · cases free
  next clear =>
    rw [map_eq_none_iff, find?_eq_none] at free
    intro area member
    rcases mem_cons.mp member with rfl | member
    · exact Bool.eq_false_iff.mpr clear
    · obtain ⟨region, attached, rfl⟩ := mem_map.mp member
      exact Bool.eq_false_iff.mpr (free region attached)

theorem zoneNext_some {moved : Addr} (taken : rvvmMmioZoneNext s addr size = some moved) :
    ∃ area ∈ s.areas, rvvmMmioOverlapCheck addr size area.addr area.size = true ∧
      moved = (area.addr + area.size + 0xFFF) &&& ~~~ 0xFFF := by
  unfold rvvmMmioZoneNext at taken
  split at taken
  next ram => exact ⟨s.ram, mem_cons_self, ram, (some.inj taken).symm⟩
  next =>
    obtain ⟨region, found, rfl⟩ := map_eq_some_iff.mp taken
    have check := find?_some found
    exact ⟨region.area, mem_cons_of_mem _ (mem_map.mpr ⟨region, mem_of_find?_eq_some found, rfl⟩),
      check, rfl⟩

theorem zoneSearch_free {rounds : Nat} {result : Addr}
    (found : rvvmMmioZoneSearch s size rounds addr = some result) :
    rvvmMmioZoneNext s result size = none := by
  induction rounds generalizing addr with
  | zero => cases found
  | succ rounds ih =>
    rw [rvvmMmioZoneSearch] at found
    split at found
    next free => exact some.inj found ▸ free
    next moved taken => exact ih found

theorem freeZone_of_zoneNext (zoneFits : Area.Fits ⟨addr, size⟩) (fits : ∀ area ∈ s.areas, area.Fits)
    (free : rvvmMmioZoneNext s addr size = none) : FreeZone s ⟨addr, size⟩ := by
  intro area member meets
  have check := (overlapCheck_iff zoneFits (fits area member)).mpr meets.2.2
  exact Bool.false_ne_true ((zoneNext_none free area member).symm.trans check)

/-- The search climbs: an area it was sent past stays behind. -/
theorem zoneSearch_ends (fits : ∀ area ∈ s.areas, area.Fits) (zoneFits : Area.Fits ⟨addr, size⟩)
    (room : ∀ area ∈ s.areas, addr.toNat < area.stop → area.stop + 0xFFF + size.toNat < 2 ^ 64) :
    ∃ rounds result, rvvmMmioZoneSearch s size rounds addr = some result ∧ addr ≤ result ∧
      Area.Fits ⟨result, size⟩ := by
  induction ahead : (s.areas.filter fun area => addr.toNat < area.stop).length using Nat.strong_induction_on
    generalizing addr with
  | _ count ih =>
  cases next : rvvmMmioZoneNext s addr size with
  | none =>
    refine ⟨1, addr, ?_, BitVec.le_refl addr, zoneFits⟩
    rw [rvvmMmioZoneSearch, next]
  | some moved =>
    obtain ⟨area, member, check, rfl⟩ := zoneNext_some next
    obtain ⟨before, -⟩ := (overlapCheck_iff zoneFits (fits area member)).mp check
    have space := room area member before
    have last : area.stop + 0xFFF < 2 ^ 64 := by omega
    obtain ⟨above, below⟩ := pageAfter_bounds last
    generalize moves : (area.addr + area.size + 0xFFF) &&& ~~~ 0xFFF = moved at *
    have climbs : addr.toNat < moved.toNat := before.trans_le above
    have fewer : (s.areas.filter fun area => moved.toNat < area.stop).length < count := by
      have sub : (s.areas.filter fun area => moved.toNat < area.stop) =
          (s.areas.filter fun area => addr.toNat < area.stop).filter fun area => moved.toNat < area.stop := by
        rw [filter_filter]
        refine filter_congr fun other _ => ?_
        rw [Bool.eq_iff_iff, Bool.and_eq_true, decide_eq_true_iff, decide_eq_true_iff]
        exact ⟨fun past => ⟨past, climbs.trans past⟩, And.left⟩
      rw [sub, ← ahead]
      refine length_filter_lt_length_iff_exists.mpr ⟨area,
        mem_filter.mpr ⟨member, by simpa using before⟩, ?_⟩
      simpa using above
    obtain ⟨rounds, result, found, higher, inside⟩ := ih _ fewer
      (by unfold Area.Fits Area.stop; dsimp only; omega)
      (fun other listed past => room other listed (climbs.trans past)) rfl
    refine ⟨rounds + 1, result, ?_, le_def.mpr (climbs.le.trans (le_def.mp higher)), inside⟩
    rw [rvvmMmioZoneSearch, next]
    exact found

end Search

variable {s : MmioSpace}

section
variable (apart : Apart s)
include apart

theorem Apart.areas_fit : ∀ area ∈ s.areas, area.Fits := by
  intro area member
  rcases mem_cons.mp member with rfl | member
  · exact s.mem.fits
  · obtain ⟨region, attached, rfl⟩ := mem_map.mp member
    exact apart.fits region attached

theorem zone_right (op : Op) (orderly : Orderly s op) : ZoneRight s op := by
  cases op with
  | zoneAuto addr size =>
    obtain ⟨zoneFits, room, placeholders⟩ := orderly
    by_cases empty : size = 0
    · refine ⟨0, addr, if_pos empty, BitVec.le_refl addr, fun area _ meets => meets.1 empty, fun _ => rfl⟩
    · obtain ⟨rounds, result, found, above, inside⟩ := zoneSearch_ends apart.areas_fit zoneFits room
      refine ⟨rounds, result, (if_neg empty).trans found, above,
        freeZone_of_zoneNext inside apart.areas_fit (zoneSearch_free found), fun free => ?_⟩
      cases rounds with
      | zero => cases found
      | succ rounds =>
        rw [rvvmMmioZoneSearch] at found
        split at found
        next => exact (some.inj found).symm
        next moved taken =>
          obtain ⟨area, member, check, -⟩ := zoneNext_some taken
          obtain ⟨before, after⟩ := (overlapCheck_iff zoneFits (apart.areas_fit area member)).mp check
          by_cases placeholder : area.size = 0
          · have point : area.stop = area.addr.toNat := by rw [Area.stop, placeholder]; rfl
            exact absurd ⟨point ▸ before, after⟩ (placeholders free area member placeholder)
          · exact absurd ⟨empty, placeholder, before, after⟩ (free area member)
  | attach | writeBar | remove => trivial

theorem attach_apart (rounds : Nat) (desc : MmioDesc)
    (fits : Area.Fits ⟨desc.addr, desc.size⟩) : Apart (step s (.attach rounds desc)) := by
  simp only [step]
  cases result : rvvmAttachMmio rounds s desc with
  | none => exact apart
  | some outcome =>
    obtain ⟨s', attached⟩ := outcome
    have outcome := rvvmAttachMmio_cases result
    cases attached with
    | none =>
      rw [map_some, show s' = _ from outcome]
      exact ⟨apart.fits, apart.ram, apart.pairwise, fun region member => (apart.known region member).trans_le
        (Nat.le_succ _)⟩
    | some region =>
      obtain ⟨attaches, dev, zone⟩ := outcome
      have area : region.area = ⟨desc.addr, desc.size⟩ := by rw [Region.area, dev]; rfl
      have free : FreeZone s region.area := by
        rw [area]
        unfold rvvmMmioZoneAuto at zone
        split at zone
        next empty => exact fun _ _ meets => meets.1 empty
        next =>
          have unchanged := zoneSearch_free zone
          exact freeZone_of_zoneNext fits apart.areas_fit unchanged
      rw [map_some, attaches.after]
      refine ⟨?_, ?_, ?_, ?_⟩
      · intro other member
        rcases mem_append.mp member with old | new
        · exact apart.fits other old
        · rw [mem_singleton.mp new, area]
          exact fits
      · intro other member
        rcases mem_append.mp member with old | new
        · exact apart.ram other old
        · rw [mem_singleton.mp new]
          exact free s.ram mem_cons_self
      · refine pairwise_append.mpr ⟨apart.pairwise, pairwise_singleton _ _,
          fun other old new last => ?_⟩
        obtain rfl := mem_singleton.mp last
        refine ⟨?_, fun meets => ?_⟩
        · rw [attaches.handle]
          exact (apart.known other old).ne
        · exact free other.area (mem_cons_of_mem _ (mem_map.mpr ⟨other, old, rfl⟩)) meets.symm
      · intro other member
        rcases mem_append.mp member with old | new
        · exact (apart.known other old).trans_le (Nat.le_succ _)
        · rw [mem_singleton.mp new, attaches.handle]
          exact Nat.lt_succ_self _

theorem move_apart {handle : Nat} {addr : Addr}
    (clear : ∀ region ∈ s.devs, region.handle = handle → Area.Fits ⟨addr, region.dev.size⟩ ∧
      ¬ Area.Meets ⟨addr, region.dev.size⟩ s.ram ∧
        ∀ other ∈ s.devs, other.handle ≠ handle → ¬ Area.Meets ⟨addr, region.dev.size⟩ other.area) :
    Apart (s.move handle addr) := by
  refine ⟨?_, ?_, ?_, ?_⟩
  · intro region member
    obtain ⟨old, attached, rfl⟩ := mem_map.mp member
    split
    next named => exact (clear old attached named).1
    next => exact apart.fits old attached
  · intro region member
    obtain ⟨old, attached, rfl⟩ := mem_map.mp member
    split
    next named => exact (clear old attached named).2.1
    next => exact apart.ram old attached
  · refine pairwise_map.mpr (apart.pairwise.imp_of_mem fun {a b} first second away => ?_)
    by_cases left : a.handle = handle
    · have right : b.handle ≠ handle := fun right => away.1 (left.trans right.symm)
      rw [if_pos left, if_neg right]
      exact ⟨away.1, (clear a first left).2.2 b second right⟩
    · rw [if_neg left]
      by_cases right : b.handle = handle
      · rw [if_pos right]
        exact ⟨away.1, fun meets => (clear b second right).2.2 a first left meets.symm⟩
      · rw [if_neg right]
        exact away
  · intro region member
    obtain ⟨old, attached, rfl⟩ := mem_map.mp member
    split <;> exact apart.known old attached

theorem remove_apart (region : Option Region) :
    Apart (rvvmRemoveMmio s region) := by
  cases region with
  | none => exact apart
  | some region =>
    have kept : ∀ {other : Region}, other ∈ (rvvmRemoveMmio s (some region)).devs → other ∈ s.devs :=
      fun member => (mem_filter.mp member).1
    exact ⟨fun other member => apart.fits other (kept member), fun other member => apart.ram other (kept member),
      apart.pairwise.filter _, fun other member => apart.known other (kept member)⟩

end

theorem step_apart (s : MmioSpace) (op : Op) (apart : Apart s) (orderly : Orderly s op) : Apart (step s op) := by
  cases op with
  | zoneAuto => exact apart
  | attach rounds desc => exact attach_apart apart rounds desc orderly
  | writeBar handle func bar val =>
    simp only [step]
    split
    next addr target => exact move_apart apart (orderly addr target)
    next => exact apart
  | remove => exact remove_apart apart _

/-- From any machine whose regions lie apart, in every orderly run they stay apart and every search is right. -/
theorem address_space_run (s : MmioSpace) (start : Apart s) (ops : List Op)
    (orderly : AllSteps step Orderly s ops) :
    (∀ t ∈ visited step s ops, t.devs.Pairwise (fun a b => ¬ a.area.Meets b.area) ∧
      ∀ region ∈ t.devs, ¬ region.area.Meets t.ram) ∧ AllSteps step ZoneRight s ops := by
  refine ⟨fun t member => ?_, AllSteps.entails step_apart (fun _ op apart => zone_right apart op) start orderly⟩
  have apart := invariant step_apart start orderly t member
  exact ⟨apart.pairwise.imp And.right, apart.ram⟩

def region (handle : Nat) (addr size : Addr) : Region := ⟨handle, ⟨addr, size, none, 1, 8⟩⟩

def machine (ram : Addr) (fits : ram.toNat + 0x1000 < 2 ^ 64) (devs : List Region) : MmioSpace :=
  ⟨⟨ram, 0x1000, 0, fits, by decide⟩, devs, devs.length, [], []⟩

theorem address_space_run_attach :
    (final step (machine 0x80000000 (by decide) []) [.attach 1 ⟨0x1000, 0x1000, none, 0, 0⟩]).devs =
        [region 0 0x1000 0x1000] ∧
      AllSteps step ZoneRight (machine 0x80000000 (by decide) [])
        [.attach 1 ⟨0x1000, 0x1000, none, 0, 0⟩, .zoneAuto 0x1000 0x2000] := by
  have start : Apart (machine 0x80000000 (by decide) []) :=
    ⟨fun _ member => absurd member (not_mem_nil), fun _ member => absurd member (not_mem_nil), .nil,
      fun _ member => absurd member (not_mem_nil)⟩
  refine ⟨by decide +kernel, (address_space_run _ start
    [.attach 1 ⟨0x1000, 0x1000, none, 0, 0⟩, .zoneAuto 0x1000 0x2000] ⟨?_, ⟨?_, ?_, fun _ => ?_⟩, trivial⟩).2⟩
  · unfold Orderly Area.Fits
    decide
  · unfold Area.Fits
    decide
  · decide +kernel
  · decide +kernel

def oneBar : Pci.BarFunc where
  __ := Pci.oneBar ⟨0x40000000, 0x1000, by decide, by decide⟩ 0
  ioAddr := 0

/-- A register moves its region onto another; a search past RAM in the last page wraps to address zero; and a
placeholder inside a free zone sends the search on. -/
theorem regions_meet_after_bar_write :
    (∃ a b, (step (machine 0x80000000 (by decide) [region 0 0x40000000 0x1000, region 1 0x40001000 0x1000])
        (.writeBar 0 oneBar 0 0x40001000)).devs = [a, b] ∧ a.area.Meets b.area) ∧
      rvvmMmioZoneAuto 2 (machine 0xFFFFFFFFFFFFE800 (by decide) []) 0xFFFFFFFFFFFFE000 0x1000 = some 0 ∧
      (FreeZone (machine 0x80000000 (by decide) [region 0 0x1800 0]) ⟨0x1000, 0x1000⟩ ∧
        rvvmMmioZoneAuto 2 (machine 0x80000000 (by decide) [region 0 0x1800 0]) 0x1000 0x1000 = some 0x2000) := by
  refine ⟨⟨region 0 0x40001000 0x1000, region 1 0x40001000 0x1000, by decide +kernel, ?_⟩, by decide +kernel,
    ?_, by decide +kernel⟩
  · unfold Area.Meets
    decide
  · unfold FreeZone Area.Meets
    decide +kernel

end Rvvm.Mmio
