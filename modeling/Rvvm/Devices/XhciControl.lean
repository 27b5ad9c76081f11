import Rvvm.Devices.XhciProgress

/-! Control transfers as the guest lays them out on the ring of the default control endpoint: each
stage is a descriptor of its own, while the controller runs a descriptor as a whole transfer. -/
namespace Rvvm.XhciRing
open List Option

/-- A Setup Stage, a Data Stage if there is one, and a Status Stage, one after the other. -/
structure ControlTransfer (g : Guest) (cur : Cursor) (setup : Addr × Trb) (data : List (Addr × Trb))
    (status : Addr × Trb) : Prop where
  stages : ∃ first last after,
    Reads g cur first ∧ first.complete = true ∧ first.trbs = [setup] ∧
      (data = [] ∧ after = first.next ∨
        ∃ middle, Reads g first.next middle ∧ middle.complete = true ∧ middle.trbs = data ∧ after = middle.next) ∧
      Reads g after last ∧ last.complete = true ∧ last.trbs = [status]
  setupType : setup.2.type = typeSetup
  dataType : ∀ e ∈ data.head?, e.2.type = typeData
  reached : ∀ e ∈ data, e.2.len = 0 ∨ g.reach e.2.ptr e.2.len = true
  statusType : status.2.type = typeStatus

/-- Where the events of a run point, those still to come included. -/
def Outcome.targets (out : Outcome) : List Addr :=
  out.posted.map Posted.target ++ (out.pending.map Pending.trbPtr).toList

/-- The runs of a walk that take in one of the stages. -/
def Walk.within (walk : Walk) (stages : List (Addr × Trb)) : List (Td × Outcome) :=
  walk.ran.filter fun run => run.1.trbs.any fun e => decide (e ∈ stages)

/-- The Setup Stage is run; over all the stages the device is asked once, with the request and room for
all the data, and the one event is that of the status. -/
structure Walk.Once (g : Guest) (walk : Walk) (setup : Addr × Trb) (data : List (Addr × Trb))
    (status : Addr × Trb) : Prop where
  started : ∃ run ∈ walk.ran, setup ∈ run.1.trbs
  asked : ∃ buf, Call.Valid g ⟨some setup.2.ptr, buf, (data.map fun e => e.2.len).sum⟩ ∧
    (walk.within (setup :: data ++ [status])).flatMap (fun run => run.2.calls)
      = [⟨some setup.2.ptr, buf, (data.map fun e => e.2.len).sum⟩]
  posted : (walk.within (setup :: data ++ [status])).flatMap (fun run => run.2.targets) = [status.1]

variable {g : Guest} {cur : Cursor}

theorem Reads.nonempty {seen : Seen} (reads : Reads g cur seen)
    (owned : seen.complete = true) : seen.trbs ≠ [] := by
  induction reads with
  | foreign none => cases owned
  | link here type rest ih => exact ih owned
  | more here type chained rest ih | last here type final => exact cons_ne_nil _ _

theorem Reads.single {seen : Seen} {e : Addr × Trb} (reads : Reads g cur seen)
    (owned : seen.complete = true) (single : seen.trbs = [e]) : g.trbAt e.1 = some e.2 ∧ e.2.chained = false := by
  induction reads with
  | foreign none => cases owned
  | link here type rest ih => exact ih owned single
  | more here type chained rest ih => exact absurd (cons.inj single).2 (rest.nonempty owned)
  | last here type final =>
    obtain ⟨rfl, -⟩ := cons.inj single
    exact ⟨(owned_eq_some here).1, final⟩

theorem collectTd_stands {td : Td} (collected : xhciCollectTd g cur = some td) :
    ∀ e ∈ td.trbs, g.trbAt e.1 = some e.2 ∧ (e.2.chained = false → td.trbs.getLast? = some e) := by
  refine @collectLoop_rule g (fun trbs => ∀ e ∈ trbs, g.trbAt e.1 = some e.2 ∧ e.2.chained = true)
    (fun trbs => ∀ e ∈ trbs, g.trbAt e.1 = some e.2 ∧ (e.2.chained = false → trbs.getLast? = some e))
    ?_ ?_ 64 cur [] (by simp) td collected
  · intro trbs cur trb stand here chained e member
    unfold keep at member
    split_ifs at member with room
    · rcases mem_append.mp member with old | new
      · exact stand e old
      · obtain rfl := mem_singleton.mp new
        exact ⟨(owned_eq_some here).1, chained⟩
    · exact stand e member
  · intro trbs cur trb stand here final
    unfold keep
    split_ifs with room
    · intro e member
      rcases mem_append.mp member with old | new
      · refine ⟨(stand e old).1, fun ends => ?_⟩
        exact nomatch ends.symm.trans (stand e old).2
      · obtain rfl := mem_singleton.mp new
        exact ⟨(owned_eq_some here).1, fun _ => getLast?_concat⟩
    · intro e member
      refine ⟨(stand e member).1, fun ends => ?_⟩
      exact nomatch ends.symm.trans (stand e member).2

theorem scan_status (g : Guest) (s : Stages) (e : Addr × Trb) :
    (s.scan g e).status = if e.2.type = typeStatus then e.1 else s.status := by
  unfold Stages.scan
  dsimp only
  by_cases status : e.2.type = typeStatus
  · simp [status, typeStatus, typeSetup, typeData]
  · split_ifs <;> rfl

/-- The event of a transfer points at a Status Stage TRB of its descriptor, if at another than the last. -/
theorem stages_status (g : Guest) (td : Td) :
    (stages g td).status = 0 ∨ ∃ e ∈ td.trbs, e.2.type = typeStatus ∧ e.1 = (stages g td).status := by
  obtain ⟨trbs, next⟩ := td
  simp only [stages]
  induction trbs using reverseRecOn with
  | nil => exact Or.inl rfl
  | append_singleton trbs e ih =>
    simp only [foldl_append, foldl_cons, foldl_nil, scan_status]
    by_cases status : e.2.type = typeStatus
    · rw [if_pos status]
      exact Or.inr ⟨e, by simp, status, rfl⟩
    · rw [if_neg status]
      rcases ih with none | ⟨e', member, found⟩
      · exact Or.inl none
      · exact Or.inr ⟨e', mem_append_left _ member, found⟩

theorem control_targets (g : Guest) (ret : Int) (td : Td) (started : (stages g td).setup.isSome = true) :
    (xhciRunControlTd g ret td).targets =
    [if (stages g td).status ≠ 0 then (stages g td).status else td.last] := by
  obtain ⟨setup, request⟩ := isSome_iff_exists.mp started
  simp only [xhciRunControlTd, request]
  by_cases async : ret = rvvmUsbXferAsync
  · rw [if_pos async]
    rfl
  · rw [if_neg async]
    rfl

theorem ringLoop_ran_from (g : Guest) (dci : Nat) (rets : Nat → Nat → Int) (rounds k : Nat) (cur : Cursor) :
    ∀ run ∈ (ringLoop g dci rets rounds k cur).ran,
      ∃ place ret, xhciCollectTd g place = some run.1 ∧ run.2 = xhciRunTd g dci ret run.1 := by
  induction rounds generalizing k cur with
  | zero => simp [ringLoop]
  | succ rounds ih =>
    intro run member
    unfold ringLoop at member
    cases collected : xhciCollectTd g cur with
    | none => simp [collected] at member
    | some td =>
      simp only [collected] at member
      split_ifs at member with pending
      · obtain rfl := mem_singleton.mp member
        exact ⟨cur, rets k, collected, rfl⟩
      · rcases mem_cons.mp member with rfl | later
        · exact ⟨cur, rets k, collected, rfl⟩
        · exact ih (k + 1) td.next run later

section Stages
variable {g : Guest} {cur : Cursor} {setup status : Addr × Trb} {data : List (Addr × Trb)}
  (laid : ControlTransfer g cur setup data status)
include laid

theorem ControlTransfer.stand : (g.trbAt setup.1 = some setup.2 ∧ setup.2.chained = false) ∧
    (g.trbAt status.1 = some status.2 ∧ status.2.chained = false) := by
  obtain ⟨first, last, after, readsFirst, ownedFirst, singleFirst, -, readsLast, ownedLast, singleLast⟩ :=
    laid.stages
  exact ⟨readsFirst.single ownedFirst singleFirst, readsLast.single ownedLast singleLast⟩

theorem ControlTransfer.setup_ne_status : setup ≠ status := by
  intro same
  have type := laid.statusType
  rw [← same, laid.setupType] at type
  cases type

/-- A descriptor with the Setup Stage ends in it, so its event points elsewhere than at the Status Stage. -/
theorem ControlTransfer.setup_target {place : Cursor} {td : Td} (collected : xhciCollectTd g place = some td)
    (taken : setup ∈ td.trbs) (ret : Int) :
    ∃ target, (xhciRunControlTd g ret td).targets = [target] ∧ target ≠ status.1 := by
  obtain ⟨⟨-, setupEnds⟩, statusAt, statusEnds⟩ := laid.stand
  have stands := collectTd_stands collected
  have ends : td.trbs.getLast? = some setup := (stands setup taken).2 setupEnds
  have apart (e : Addr × Trb) (member : e ∈ td.trbs) (target : e.1 = status.1) : e = setup := by
    have found := (stands e member).1
    rw [target, statusAt] at found
    have same := (stands e member).2 (by rw [← some.inj found]; exact statusEnds)
    rw [ends] at same
    exact (some.inj same).symm
  have first : setup.1 ≠ status.1 := by
    intro target
    have found := (stands setup taken).1
    rw [target, statusAt] at found
    exact laid.setup_ne_status (Prod.ext target (some.inj found).symm)
  have started := (stages_setup g td).mpr ⟨setup, taken, laid.setupType⟩
  refine ⟨_, control_targets g ret td started, ?_⟩
  split_ifs with another
  · rcases stages_status g td with none | ⟨e, member, type, spot⟩
    · exact absurd none another
    · rw [← spot]
      intro target
      rw [apart e member target, laid.setupType] at type
      cases type
  · simpa [Td.last, ends] using first

end Stages

/-- No control transfer laid out in stages is carried out as one. -/
theorem staged_control_never_once (g : Guest) (cur : Cursor) (setup : Addr × Trb) (data : List (Addr × Trb))
    (status : Addr × Trb) (laid : ControlTransfer g cur setup data status) (rets : Nat → Nat → Int)
    (rounds : Nat) : ¬ (ringLoop g 1 rets rounds 0 cur).Once g setup data status := by
  intro once
  obtain ⟨run, member, taken⟩ := once.started
  obtain ⟨place, ret, collected, ran⟩ := ringLoop_ran_from g 1 rets rounds 0 cur run member
  obtain ⟨target, points, elsewhere⟩ := laid.setup_target collected taken (ret 0)
  have mine : run ∈ (ringLoop g 1 rets rounds 0 cur).within (setup :: data ++ [status]) := by
    refine mem_filter.mpr ⟨member, any_eq_true.mpr ⟨setup, taken, ?_⟩⟩
    simp
  have posted : target ∈ [status.1] := by
    rw [← once.posted]
    refine mem_flatMap.mpr ⟨run, mine, ?_⟩
    rw [ran, xhciRunTd, if_pos rfl, points]
    exact mem_singleton_self target
  exact elsewhere (mem_singleton.mp posted)

def stagedGuest : Guest :=
  { trbAt := fun a =>
      if a = 0x1000 then some ⟨0x1234, 8, 0x801⟩
      else if a = 0x1010 then some ⟨0x8000, 8, 0xC01⟩
      else if a = 0x1020 then some ⟨0, 0, 0x1021⟩
      else none
    reach := fun _ _ => true }

theorem stagedGuest_lays : ControlTransfer stagedGuest ⟨0x1000, true⟩ (0x1000, ⟨0x1234, 8, 0x801⟩)
    [(0x1010, ⟨0x8000, 8, 0xC01⟩)] (0x1020, ⟨0, 0, 0x1021⟩) := by
  refine ⟨⟨_, _, _, .last rfl (by decide) rfl, rfl, rfl, Or.inr ⟨_, .last rfl (by decide) rfl, rfl, rfl, rfl⟩,
    .last rfl (by decide) rfl, rfl, rfl⟩, rfl, ?_, ?_, rfl⟩
  · simp only [head?_cons, mem_def, some.injEq, forall_eq']
    rfl
  · simp [stagedGuest]

theorem staged_control_never_once_data :
    ControlTransfer stagedGuest ⟨0x1000, true⟩ (0x1000, ⟨0x1234, 8, 0x801⟩) [(0x1010, ⟨0x8000, 8, 0xC01⟩)]
        (0x1020, ⟨0, 0, 0x1021⟩) ∧
      ¬ (ringLoop stagedGuest 1 (fun _ _ => 8) 4 0 ⟨0x1000, true⟩).Once stagedGuest (0x1000, ⟨0x1234, 8, 0x801⟩)
        [(0x1010, ⟨0x8000, 8, 0xC01⟩)] (0x1020, ⟨0, 0, 0x1021⟩) :=
  ⟨stagedGuest_lays, staged_control_never_once _ _ _ _ _ stagedGuest_lays _ _⟩

theorem staged_control_posts_three :
    ControlTransfer stagedGuest ⟨0x1000, true⟩ (0x1000, ⟨0x1234, 8, 0x801⟩) [(0x1010, ⟨0x8000, 8, 0xC01⟩)]
        (0x1020, ⟨0, 0, 0x1021⟩) ∧
      (ringLoop stagedGuest 1 (fun _ _ => 8) 4 0 ⟨0x1000, true⟩).calls = [⟨some 0x1234, .null, 0⟩] ∧
      (ringLoop stagedGuest 1 (fun _ _ => 8) 4 0 ⟨0x1000, true⟩).posted.map Posted.target
        = [0x1000, 0x1010, 0x1020] :=
  ⟨stagedGuest_lays, by decide +kernel, by decide +kernel⟩

end Rvvm.XhciRing
