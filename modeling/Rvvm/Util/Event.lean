import Rvvm.Library.Runs

/-! Events: a flag that `rvvm_event_wake` sets and `rvvm_event_wait` consumes, over a futex on the flag. Any
number of threads call them, and each atomic operation and futex call is a step of its own. -/
namespace Rvvm.Event
open Runs
open Function (update update_apply update_of_ne update_self)

inductive Timeout
  | zero
  | finite
  | infinite
  deriving DecidableEq

/-- Where a thread stands in `rvvm_event_wait`, up to its return value and the signal it took, or in
`rvvm_event_wake`. -/
inductive Phase
  | idle
  | check1 (timeout : Timeout)
  | swap1 (timeout : Timeout)
  | register (timeout : Timeout)
  | check2 (timeout : Timeout)
  | swap2 (timeout : Timeout)
  | futexWait (timeout : Timeout)
  | asleep (timeout : Timeout)
  | check3 (woken : Bool)
  | swap3 (woken : Bool)
  | leave (woken : Bool) (took : Option Nat)
  | wakeCheck
  | wakeSwap
  | wakeWaiters
  | futexWake
  deriving DecidableEq

/-- What became of a signal: not taken, taken by a wait under way, or by one that returned true or false. -/
inductive Fate
  | unseen
  | held
  | reported
  | lost
  deriving DecidableEq

/-- `blocked` are the threads the futex keeps asleep, `registered` those counted in `waiters`; `signals` counts the
wakes that set the flag. -/
structure State (Thread : Type*) where
  flag : Bool
  waiters : BitVec 32
  phase : Thread → Phase
  blocked : Finset Thread
  registered : Finset Thread
  signals : Nat
  fate : Nat → Fate

variable {Thread : Type*} [DecidableEq Thread]

def rvvmEventInit : State Thread := ⟨false, 0, fun _ => .idle, ∅, ∅, 0, fun _ => .unseen⟩

def State.go (s : State Thread) (t : Thread) (phase : Phase) : State Thread :=
  { s with phase := update s.phase t phase }

/-- The flag is reset, which takes the latest signal. -/
def State.take (s : State Thread) (t : Thread) (phase : Phase) (fate : Fate) : State Thread :=
  { s.go t phase with flag := false, fate := update s.fate (s.signals - 1) fate }

/-- The first check has found no signal. -/
def State.miss (s : State Thread) (t : Thread) (timeout : Timeout) : State Thread :=
  s.go t (if timeout = .zero then .idle else .register timeout)

/-- The next step of a thread; `pick` is the thread its futex wake lets go. -/
def State.run (s : State Thread) (t pick : Thread) : State Thread :=
  match s.phase t with
  | .idle => s
  | .check1 timeout => if s.flag then s.go t (.swap1 timeout) else s.miss t timeout
  | .swap1 timeout => if s.flag then s.take t .idle .reported else s.miss t timeout
  | .register timeout =>
    { s.go t (.check2 timeout) with waiters := s.waiters + 1, registered := insert t s.registered }
  | .check2 timeout => s.go t (if s.flag then .swap2 timeout else .futexWait timeout)
  | .swap2 timeout =>
    if s.flag then s.take t (.leave false (some (s.signals - 1))) .held else s.go t (.futexWait timeout)
  | .futexWait timeout =>
    if s.flag then s.go t (.check3 true) else { s.go t (.asleep timeout) with blocked := insert t s.blocked }
  | .asleep _ => if t ∈ s.blocked then s else s.go t (.check3 true)
  | .check3 woken => s.go t (if s.flag then .swap3 woken else .leave woken none)
  | .swap3 woken =>
    if s.flag then s.take t (.leave true (some (s.signals - 1))) .held else s.go t (.leave woken none)
  | .leave woken took =>
    { s.go t .idle with
      waiters := s.waiters - 1
      registered := s.registered.erase t
      fate := match took with
        | some k => update s.fate k (if woken then .reported else .lost)
        | none => s.fate }
  | .wakeCheck => s.go t (if s.flag then .idle else .wakeSwap)
  | .wakeSwap =>
    if s.flag then s.go t .idle else { s.go t .wakeWaiters with flag := true, signals := s.signals + 1 }
  | .wakeWaiters => s.go t (if s.waiters = 0 then .idle else .futexWake)
  | .futexWake =>
    if pick ∈ s.blocked then { s.go t .idle with blocked := s.blocked.erase pick }
    else if s.blocked = ∅ then s.go t .idle
    else s

/-- A thread begins a call, takes its next step, or is let go by the futex at its timeout. -/
inductive Step (Thread : Type*)
  | wait (t : Thread) (timeout : Timeout)
  | wake (t : Thread)
  | run (t pick : Thread)
  | expire (t : Thread)

def step (s : State Thread) : Step Thread → State Thread
  | .wait t timeout => if s.phase t = .idle then s.go t (.check1 timeout) else s
  | .wake t => if s.phase t = .idle then s.go t .wakeCheck else s
  | .run t pick => s.run t pick
  | .expire t =>
    if s.phase t = .asleep .finite ∧ t ∈ s.blocked then
      { s.go t (.check3 false) with blocked := s.blocked.erase t }
    else s

def Phase.waiting : Phase → Bool
  | .check2 _ | .swap2 _ | .futexWait _ | .asleep _ | .check3 _ | .swap3 _ | .leave _ _ => true
  | _ => false

def Phase.waking : Phase → Bool
  | .wakeCheck | .wakeSwap | .wakeWaiters | .futexWake => true
  | _ => false

/-- No wait that took a signal returned false, a signal that no wait took still shows as the flag, and a set
flag is not slept through. -/
structure Lawful (s : State Thread) : Prop where
  reports : ∀ k, s.fate k ≠ .lost
  shown : ∀ k < s.signals, s.fate k = .unseen → s.flag = true
  noticed : ¬ (s.flag = true ∧ (∀ t, (s.phase t).waking = false) ∧ (∃ t, (s.phase t).waiting = true) ∧
    ∀ t, (s.phase t).waiting = true → t ∈ s.blocked)

/-- No wait finds the flag set at its check between registering and sleeping, and the counter does not wrap. -/
def Clear (s : State Thread) : Step Thread → Bool
  | .run t _ =>
    match s.phase t with
    | .swap2 _ => !s.flag
    | .register _ => s.waiters ≠ -1
    | _ => true
  | _ => true

/-! Three invariants, each over the fields it reads; a step moves one thread, from `s` to `s'`. -/

structure Accounted (s : State Thread) : Prop where
  reports : ∀ k, s.fate k ≠ .lost
  holds : ∀ t woken k, s.phase t = .leave woken (some k) → woken = true
  shown : ∀ k < s.signals, s.fate k = .unseen → s.flag = true ∧ k + 1 = s.signals

/-- The counter counts the threads between registering and leaving. -/
structure Counted (s : State Thread) : Prop where
  counted : s.waiters.toNat = s.registered.card
  registered : ∀ t, t ∈ s.registered ↔ (s.phase t).waiting = true

/-- The thread will look at the flag again, or wake one that does, unless it is blocked. -/
def Phase.alert : Phase → Bool
  | .asleep _ | .check3 _ | .swap3 _ | .wakeWaiters | .futexWake => true
  | _ => false

/-- A set flag with threads asleep is known to a thread that is awake. -/
structure Watched (s : State Thread) : Prop where
  sleeps : ∀ t ∈ s.blocked, ∃ timeout, s.phase t = .asleep timeout
  watched : s.flag = true → s.blocked.Nonempty → ∃ t ∉ s.blocked, (s.phase t).alert = true

structure Inv (s : State Thread) : Prop where
  accounted : Accounted s
  counted : Counted s
  watched : Watched s

section Moves
variable {s s' : State Thread} {t : Thread} {p q : Phase} (was : s.phase t = p)
  (moved : s'.phase = update s.phase t q)
include moved

section
variable (acc : Accounted s) (next : ∀ woken k, q = .leave woken (some k) → woken = true)
include acc next

theorem holds_moved (u : Thread)
    (woken : Bool) (k : Nat) (there : s'.phase u = .leave woken (some k)) : woken = true := by
  by_cases same : u = t
  · subst same
    rw [moved, update_self] at there
    exact next woken k there
  · rw [moved, update_of_ne same] at there
    exact acc.holds u woken k there

theorem Accounted.pass
    (flag : s'.flag = s.flag) (signals : s'.signals = s.signals) (fate : s'.fate = s.fate) : Accounted s' := by
  refine ⟨?_, holds_moved moved acc next, ?_⟩
  · rw [fate]
    exact acc.reports
  · rw [fate, flag, signals]
    exact acc.shown
end

theorem sleeps_moved (watch : Watched s) (fewer : s'.blocked ⊆ s.blocked) (awake : t ∉ s'.blocked) (u : Thread)
    (asleep : u ∈ s'.blocked) : ∃ timeout, s'.phase u = .asleep timeout := by
  have other : u ≠ t := by
    rintro rfl
    exact awake asleep
  rw [moved, update_of_ne other]
  exact watch.sleeps u (fewer asleep)

include was

theorem Counted.stay (count : Counted s) (same : q.waiting = p.waiting) (waiters : s'.waiters = s.waiters)
    (registered : s'.registered = s.registered) : Counted s' := by
  refine ⟨by rw [waiters, registered, count.counted], fun u => ?_⟩
  rw [registered, count.registered u, moved]
  by_cases mine : u = t
  · subst mine
    rw [update_self, was, same]
  · rw [update_of_ne mine]

theorem Watched.stay (watch : Watched s) (flag : s'.flag = true → s.flag = true) (blocked : s'.blocked = s.blocked)
    (awake : t ∉ s.blocked)
    (alert : p.alert = true → s'.flag = true → s.blocked.Nonempty → q.alert = true) : Watched s' := by
  refine ⟨sleeps_moved moved watch (by rw [blocked]) (by rw [blocked]; exact awake), fun set some => ?_⟩
  rw [blocked] at some ⊢
  obtain ⟨u, free, looks⟩ := watch.watched (flag set) some
  refine ⟨u, free, ?_⟩
  by_cases mine : u = t
  · subst mine
    rw [was] at looks
    rw [moved, update_self]
    exact alert looks set some
  · rw [moved, update_of_ne mine]
    exact looks

end Moves

variable {s : State Thread}

omit [DecidableEq Thread] in
theorem Inv.free (inv : Inv s) {t : Thread} {p : Phase} (was : s.phase t = p)
    (awake : ∀ timeout, p ≠ .asleep timeout) : t ∉ s.blocked := by
  intro asleep
  obtain ⟨timeout, sleeps⟩ := inv.watched.sleeps t asleep
  exact awake timeout (was.symm.trans sleeps)

section Steps
variable {s : State Thread} (inv : Inv s) {t : Thread} {p q : Phase} (was : s.phase t = p)
include inv was

theorem Inv.go (free : t ∉ s.blocked) (next : ∀ woken k, q = .leave woken (some k) → woken = true)
    (waits : q.waiting = p.waiting)
    (alert : p.alert = true → s.flag = true → s.blocked.Nonempty → q.alert = true) : Inv (s.go t q) where
  accounted := inv.accounted.pass rfl next rfl rfl rfl
  counted := inv.counted.stay was rfl waits rfl rfl
  watched := inv.watched.stay was rfl id rfl free alert

theorem Inv.take {fate : Fate} (awake : ∀ timeout, p ≠ .asleep timeout)
    (next : ∀ woken k, q = .leave woken (some k) → woken = true) (waits : q.waiting = p.waiting)
    (seen : fate ≠ .unseen) (kept : fate ≠ .lost) : Inv (s.take t q fate) where
  accounted := by
    refine ⟨fun k => ?_, holds_moved rfl inv.accounted next, fun k below unseen => ?_⟩
    · by_cases mine : k = s.signals - 1
      · subst mine
        exact (update_self ..).trans_ne kept
      · exact (update_of_ne mine ..).trans_ne (inv.accounted.reports k)
    · have other : k ≠ s.signals - 1 := by
        rintro rfl
        exact seen ((update_self ..).symm.trans unseen)
      have last := (inv.accounted.shown k below ((update_of_ne other ..).symm.trans unseen)).2
      exact absurd last (by omega)
  counted := inv.counted.stay was rfl waits rfl rfl
  watched := inv.watched.stay was rfl nofun rfl (inv.free was awake) nofun

end Steps

section
variable (inv : Inv s)
include inv

theorem Inv.register {t : Thread} {timeout : Timeout}
    (was : s.phase t = .register timeout) (small : s.waiters ≠ -1) :
    Inv { s.go t (.check2 timeout) with waiters := s.waiters + 1, registered := insert t s.registered } where
  accounted := inv.accounted.pass rfl nofun rfl rfl rfl
  counted := by
    have new : t ∉ s.registered := by
      rw [inv.counted.registered, was]
      exact Bool.false_ne_true
    refine ⟨?_, fun u => ?_⟩
    · have room : s.waiters.toNat + 1 < 2 ^ 32 := by
        have last : s.waiters.toNat ≠ 2 ^ 32 - 1 := fun full => small (BitVec.eq_of_toNat_eq full)
        omega
      rw [Finset.card_insert_of_notMem new, ← inv.counted.counted]
      exact Nat.mod_eq_of_lt room
    · dsimp only [State.go]
      rw [Finset.mem_insert, inv.counted.registered]
      by_cases mine : u = t <;> simp [mine, Phase.waiting]
  watched := inv.watched.stay was rfl id rfl (inv.free was nofun) nofun

theorem Inv.leave {t pick : Thread} {woken : Bool} {took : Option Nat}
    (was : s.phase t = .leave woken took) : Inv (s.run t pick) := by
  have mine : t ∈ s.registered := by rw [inv.counted.registered, was]; rfl
  have some : 0 < s.registered.card := Finset.card_pos.mpr ⟨t, mine⟩
  have counted := inv.counted.counted
  unfold State.run
  rw [was]
  refine ⟨⟨fun k => ?_, holds_moved rfl inv.accounted nofun, fun k below unseen => ?_⟩, ⟨?_, fun u => ?_⟩,
    inv.watched.stay was rfl id rfl (inv.free was nofun) nofun⟩
  · cases took with
    | none => exact inv.accounted.reports k
    | some j =>
      obtain rfl := inv.accounted.holds t woken j was
      by_cases same : k = j
      · subst same
        exact (update_self ..).trans_ne nofun
      · exact (update_of_ne same ..).trans_ne (inv.accounted.reports k)
  · refine inv.accounted.shown k below ?_
    cases took with
    | none => exact unseen
    | some j =>
      obtain rfl := inv.accounted.holds t woken j was
      have other : k ≠ j := by
        rintro rfl
        exact absurd ((update_self ..).symm.trans unseen) nofun
      exact (update_of_ne other ..).symm.trans unseen
  · rw [Finset.card_erase_of_mem mine, BitVec.toNat_sub_of_le]
    · exact congrArg (· - 1) counted
    · rw [BitVec.le_def, counted]
      exact some
  · dsimp only [State.go]
    rw [Finset.mem_erase, inv.counted.registered]
    by_cases same : u = t <;> simp [same, Phase.waiting]

theorem Inv.none_blocked (none : s.waiters = 0) : s.blocked = ∅ := by
  have empty : s.registered = ∅ := by
    rw [← Finset.card_eq_zero, ← inv.counted.counted, none]
    rfl
  by_contra some
  obtain ⟨t, asleep⟩ := Finset.nonempty_iff_ne_empty.mpr some
  obtain ⟨timeout, sleeps⟩ := inv.watched.sleeps t asleep
  have mine : t ∈ s.registered := by rw [inv.counted.registered, sleeps]; rfl
  rw [empty] at mine
  exact Finset.notMem_empty t mine

theorem Inv.release {t pick : Thread} {p q : Phase} (was : s.phase t = p)
    (next : ∀ woken k, q = .leave woken (some k) → woken = true) (waits : q.waiting = p.waiting)
    (asleep : pick ∈ s.blocked) (gone : t ∉ s.blocked.erase pick) (alert : pick = t → q.alert = true) :
    Inv { s.go t q with blocked := s.blocked.erase pick } where
  accounted := inv.accounted.pass rfl next rfl rfl rfl
  counted := inv.counted.stay was rfl waits rfl rfl
  watched := by
    refine ⟨sleeps_moved rfl inv.watched (Finset.erase_subset _ _) gone,
      fun _ _ => ⟨pick, Finset.notMem_erase pick s.blocked, ?_⟩⟩
    dsimp only [State.go]
    by_cases same : pick = t
    · rw [same, update_self]
      exact alert same
    · obtain ⟨timeout, sleeps⟩ := inv.watched.sleeps pick asleep
      rw [update_of_ne same, sleeps]
      rfl

theorem Inv.run (t pick : Thread) (clear : Clear s (.run t pick) = true) :
    Inv (s.run t pick) := by
  cases was : s.phase t with
  | leave woken took => exact inv.leave was
  | register timeout =>
    simp only [Clear, was] at clear
    simp only [State.run, was]
    exact inv.register was (of_decide_eq_true clear)
  | idle =>
    simp only [State.run, was]
    exact inv
  | check1 timeout =>
    simp only [State.run, was]
    have free := inv.free was nofun
    split_ifs
    · exact inv.go was free nofun rfl nofun
    · exact inv.go was free (by split_ifs <;> nofun) (by split_ifs <;> rfl) nofun
  | swap1 timeout =>
    simp only [State.run, was]
    split_ifs
    · exact inv.take was nofun nofun rfl nofun nofun
    · exact inv.go was (inv.free was nofun) (by split_ifs <;> nofun) (by split_ifs <;> rfl) nofun
  | check2 timeout | wakeCheck =>
    simp only [State.run, was]
    exact inv.go was (inv.free was nofun) (by split_ifs <;> nofun) (by split_ifs <;> rfl) nofun
  | swap2 timeout =>
    simp only [Clear, was, Bool.not_eq_true'] at clear
    simp only [State.run, was, clear]
    exact inv.go was (inv.free was nofun) nofun rfl nofun
  | futexWait timeout =>
    simp only [State.run, was]
    split_ifs with set
    · exact inv.go was (inv.free was nofun) nofun rfl nofun
    · refine ⟨inv.accounted.pass rfl nofun rfl rfl rfl, inv.counted.stay was rfl rfl rfl rfl, ?_,
        fun now => absurd now set⟩
      intro u sleeping
      dsimp only [State.go]
      rw [update_apply]
      split_ifs with same
      · exact ⟨timeout, rfl⟩
      · exact inv.watched.sleeps u ((Finset.mem_insert.mp sleeping).resolve_left same)
  | asleep timeout =>
    simp only [State.run, was]
    split_ifs with sleeping
    · exact inv
    · exact inv.go was sleeping nofun rfl fun _ _ _ => rfl
  | check3 woken =>
    simp only [State.run, was]
    refine inv.go was (inv.free was nofun) (by split_ifs <;> nofun) (by split_ifs <;> rfl) fun _ set _ => ?_
    rw [if_pos set]
    rfl
  | swap3 woken =>
    simp only [State.run, was]
    split_ifs with set
    · refine inv.take was nofun ?_ rfl nofun nofun
      rintro woken k ⟨⟩
      rfl
    · exact inv.go was (inv.free was nofun) nofun rfl fun _ now _ => absurd now set
  | wakeSwap =>
    simp only [State.run, was]
    have free := inv.free was nofun
    split_ifs with set
    · exact inv.go was free nofun rfl nofun
    · refine ⟨⟨inv.accounted.reports, holds_moved rfl inv.accounted nofun, fun k below unseen => ⟨rfl, ?_⟩⟩,
        inv.counted.stay was rfl rfl rfl rfl, sleeps_moved rfl inv.watched (Finset.Subset.refl _) free,
        fun _ _ => ⟨t, free, ?_⟩⟩
      · by_contra earlier
        have old : k < s.signals := by
          dsimp only at below earlier
          omega
        exact set (inv.accounted.shown k old unseen).1
      · dsimp only [State.go]
        rw [update_self]
        rfl
  | wakeWaiters =>
    simp only [State.run, was]
    have free := inv.free was nofun
    split_ifs with none
    · exact inv.go was free nofun rfl fun _ _ some => absurd (inv.none_blocked none) some.ne_empty
    · exact inv.go was free nofun rfl fun _ _ _ => rfl
  | futexWake =>
    simp only [State.run, was]
    have free := inv.free was nofun
    split_ifs with sleeping empty
    · refine inv.release was nofun rfl sleeping (fun mine => free (Finset.mem_of_mem_erase mine)) ?_
      rintro rfl
      exact absurd sleeping free
    · exact inv.go was free nofun rfl fun _ _ some => absurd empty some.ne_empty
    · exact inv

theorem Inv.step (a : Step Thread) (clear : Clear s a = true) :
    Inv (Event.step s a) := by
  cases a with
  | wait t timeout | wake t =>
    unfold Event.step
    dsimp only
    split_ifs with idle
    · exact inv.go idle (inv.free idle nofun) nofun rfl nofun
    · exact inv
  | run t pick => exact inv.run t pick clear
  | expire t =>
    unfold Event.step
    dsimp only
    split_ifs with sleeping
    · exact inv.release sleeping.1 nofun rfl sleeping.2 (Finset.notMem_erase t _) fun _ => rfl
    · exact inv
end

theorem Phase.waiting_of_alert {p : Phase} (looks : p.alert = true) (quiet : p.waking = false) :
    p.waiting = true := by
  cases p with
  | wakeWaiters | futexWake => cases quiet
  | asleep | check3 | swap3 => rfl
  | _ => cases looks

omit [DecidableEq Thread] in
theorem Inv.lawful (inv : Inv s) : Lawful s where
  reports := inv.accounted.reports
  shown := fun k below unseen => (inv.accounted.shown k below unseen).1
  noticed := by
    rintro ⟨set, silent, ⟨t, waits⟩, asleep⟩
    obtain ⟨u, free, looks⟩ := inv.watched.watched set ⟨t, asleep t waits⟩
    exact free (asleep u (Phase.waiting_of_alert looks (silent u)))

omit [DecidableEq Thread] in
theorem inv_rvvmEventInit : Inv (rvvmEventInit : State Thread) where
  accounted := ⟨nofun, nofun, nofun⟩
  counted := ⟨rfl, fun t => by simp [rvvmEventInit, Phase.waiting]⟩
  watched := ⟨nofun, nofun⟩

/-- In every run in which no wait finds the flag set right after registering, no signal is lost and none is slept
through. -/
theorem event_run_lawful {steps : List (Step Thread)}
    (clear : AllSteps step (fun s a => Clear s a = true) rvvmEventInit steps) :
    ∀ s ∈ visited step (rvvmEventInit : State Thread) steps, Lawful s := by
  intro s reached
  have keeps (s : State Thread) (a : Step Thread) (inv : Inv s) (clear : Clear s a = true) : Inv (step s a) :=
    inv.step a clear
  exact (invariant keeps inv_rvvmEventInit clear s reached).lawful

/-- Thread 0 sleeps until thread 1 wakes it. -/
theorem event_run_lawful_woken :
    let steps : List (Step (Fin 2)) := [.wait 0 .infinite, .run 0 0, .run 0 0, .run 0 0, .run 0 0, .wake 1,
      .run 1 0, .run 1 0, .run 1 0, .run 1 0, .run 0 0, .run 0 0, .run 0 0, .run 0 0]
    AllSteps step (fun s a => Clear s a = true) rvvmEventInit steps ∧
      (final step rvvmEventInit steps).fate 0 = .reported ∧ Lawful (final step rvvmEventInit steps) := by
  intro steps
  have clear : AllSteps step (fun s a => Clear s a = true) rvvmEventInit steps := by decide +kernel
  exact ⟨clear, by decide +kernel, event_run_lawful clear _ (final_mem_visited _ _)⟩

/-- Thread 1 sets the flag after thread 0 has registered: thread 0 resets it at its second check and returns
false. -/
theorem signal_taken_and_denied :
    let s := final step (rvvmEventInit : State (Fin 2)) [.wait 0 .infinite, .run 0 0, .run 0 0, .wake 1,
      .run 1 0, .run 1 0, .run 1 0, .run 1 0, .run 0 0, .run 0 0, .run 0 0]
    s.phase 0 = .idle ∧ s.phase 1 = .idle ∧ s.signals = 1 ∧ s.flag = false ∧ s.fate 0 = .lost ∧ ¬ Lawful s := by
  intro s
  have lost : s.fate 0 = .lost := by decide +kernel
  exact ⟨by decide +kernel, by decide +kernel, by decide +kernel, by decide +kernel, lost,
    fun lawful => lawful.reports 0 lost⟩

end Rvvm.Event
