import Rvvm.Library.Runs

/-! The reader/writer lock: one word with the writer bit, the reader count and the waiter bit. Every
thread of a finite set steps from one atomic operation or futex call to the next. A thread that
sleeps in the kernel is never forgotten: either the lock is held with the waiter bit set, or another
thread is on its way to wake it or to take the lock with the bit set. -/
namespace Rvvm.Spinlock
open BitVec Nat Runs
open Bool (false_eq_true false_ne_true)

inductive Kind
  | writer
  | reader
  deriving DecidableEq

def hasWriter (flag : BitVec 32) : Bool := flag.getLsbD 0

def hasReaders (flag : BitVec 32) : Bool := flag &&& 0x7FFFFFFE#32 != 0

def hasWaiters (flag : BitVec 32) : Bool := flag.msb

def waiters : BitVec 32 := 0x80000000

def available (flag : BitVec 32) : Kind → Bool
  | .writer => flag == 0
  | .reader => !(hasWriter flag || hasWaiters flag)

/-- The next atomic operation of a thread. `blocking` sets the locking calls apart from the `try` ones, `slow` the
claims of the kernel-wait loop, which set the waiter bit, from those made while spinning. -/
inductive Pc
  | out
  | held (kind : Kind)
  | casWriter (blocking : Bool)
  | loadReader (blocking : Bool)
  | casReader (blocking : Bool) (prev : BitVec 32)
  | spin (kind : Kind) (left : Nat)
  | claim (kind : Kind) (slow : Bool)
  | casClaim (slow : Bool) (prev : BitVec 32)
  | look (kind : Kind)
  | mark (kind : Kind) (seen : BitVec 32)
  | wait (kind : Kind) (seen : BitVec 32)
  | blocked (kind : Kind)
  | clearing
  | waking
  | crashed
  deriving DecidableEq

inductive Call
  | lock
  | tryLock
  | readLock
  | tryReadLock

/-- What a step leaves open: the call made, whether a weak CAS fails or a wait ends for no reason,
and who is woken. -/
structure Choice (ι : Type) where
  call : Call
  spurious : Bool
  target : ι

structure State (ι : Type) where
  flag : BitVec 32
  pc : ι → Pc

def spinlockUserRetries : Nat := 40

/-- Where a locking call goes on when its fast path fails. -/
def Pc.fallback (kind : Kind) (blocking : Bool) : Pc := if blocking then .spin kind spinlockUserRetries else .out

/-- The check in the loop of `spin_try_read_lock`. -/
def tryReadGate (blocking : Bool) (prev : BitVec 32) : Pc :=
  if available prev .reader then .casReader blocking prev else .fallback .reader blocking

/-- The check in the loop of `spin_try_claim_lock`. -/
def claimGate (slow : Bool) (prev : BitVec 32) : Pc :=
  if available prev .reader then .casClaim slow prev else .look .reader

def spinLockWake (prev : BitVec 32) : Pc :=
  if hasReaders prev || !hasWriter prev then .crashed else if hasWaiters prev then .waking else .out

def spinReadLockWake (prev : BitVec 32) : Pc :=
  if hasWriter prev || !hasReaders prev then .crashed else if hasWaiters prev then .clearing else .out

def Pc.isBlocked : Pc → Bool
  | .blocked _ => true
  | _ => false

section
variable {ι : Type} [DecidableEq ι] [Fintype ι]

def State.goto (s : State ι) (t : ι) (flag : BitVec 32) (pc : Pc) : State ι := ⟨flag, Function.update s.pc t pc⟩

/-- One atomic operation or futex call of thread `t`. A holder's next operation is its unlock. -/
def step (s : State ι) (event : ι × Choice ι) : State ι :=
  let (t, choice) := event
  let flag := s.flag
  match s.pc t with
  | .out =>
    s.goto t flag <| match choice.call with
      | .lock => .casWriter true
      | .tryLock => .casWriter false
      | .readLock => .loadReader true
      | .tryReadLock => .loadReader false
  | .held .writer => s.goto t 0 (if flag = 1 then .out else spinLockWake flag)
  | .held .reader => s.goto t (flag - 2) (if flag.toInt < 2 then spinReadLockWake flag else .out)
  | .casWriter blocking =>
    if flag = 0 ∧ ¬ (blocking && choice.spurious) then s.goto t 1 (.held .writer)
    else s.goto t flag (.fallback .writer blocking)
  | .loadReader blocking => s.goto t flag (tryReadGate blocking flag)
  | .casReader blocking prev =>
    if flag = prev ∧ ¬ choice.spurious then s.goto t (prev + 2) (.held .reader)
    else s.goto t flag (tryReadGate blocking flag)
  | .spin kind left =>
    s.goto t flag (if available flag kind then .claim kind false else if left ≤ 1 then .look kind
      else .spin kind (left - 1))
  | .claim .writer slow =>
    if flag = 0 then s.goto t (if slow then 1 ||| waiters else 1) (.held .writer)
      else s.goto t flag (.look .writer)
  | .claim .reader slow => s.goto t flag (claimGate slow flag)
  | .casClaim slow prev =>
    if flag = prev ∧ ¬ choice.spurious then
      s.goto t (if slow then (prev + 2) ||| waiters else prev + 2) (.held .reader)
    else s.goto t flag (claimGate slow flag)
  | .look kind =>
    s.goto t flag (if available flag kind then .claim kind true else if hasWaiters flag then .wait kind flag
      else .mark kind flag)
  | .mark kind seen =>
    if flag = seen then s.goto t (seen ||| waiters) (.wait kind (seen ||| waiters))
      else s.goto t flag (.look kind)
  | .wait kind seen => s.goto t flag (if flag = seen then .blocked kind else .look kind)
  | .blocked kind => if choice.spurious then s.goto t flag (.look kind) else s
  | .clearing => s.goto t (flag &&& 0x7FFFFFFF) .waking
  | .waking =>
    match s.pc choice.target with
    | .blocked kind => (s.goto choice.target flag (.look kind)).goto t flag .out
    | _ => if ∃ u, (s.pc u).isBlocked then s else s.goto t flag .out
  | .crashed => s

def State.count (s : State ι) (kind : Kind) : Nat := (Finset.univ.filter fun t => s.pc t = .held kind).card

def Exclusive (s : State ι) : Prop := s.count .writer ≤ 1 ∧ (s.count .writer = 1 → s.count .reader = 0)

def Pc.wants : Pc → Bool
  | .casWriter _ | .loadReader _ | .casReader _ _ | .spin _ _ | .claim _ _ | .casClaim _ _ | .look _ | .mark _ _
  | .wait _ _ | .blocked _ => true
  | _ => false

def Pc.unlocks : Pc → Bool
  | .clearing | .waking => true
  | _ => false

/-- Nobody holds the lock or is about to wake anyone, and all who want it sleep. -/
def LostWakeup (s : State ι) : Prop :=
  (∀ t kind, s.pc t ≠ .held kind) ∧ (∀ t, (s.pc t).unlocks = false) ∧ (∃ t, (s.pc t).wants = true) ∧
    ∀ t, (s.pc t).wants = true → (s.pc t).isBlocked = true

/-! ## The word -/

theorem hasWaiters_iff (flag : BitVec 32) : hasWaiters flag = true ↔ 2 ^ 31 ≤ flag.toNat := by
  rw [hasWaiters, msb_eq_decide, decide_eq_true_iff]

theorem hasWriter_iff (flag : BitVec 32) : hasWriter flag = true ↔ flag.toNat % 2 = 1 := by
  rw [hasWriter, getLsbD, testBit_zero, decide_eq_true_iff]

variable {flag : BitVec 32}

theorem hasReaders_of (some : 2 ≤ flag.toNat % 2 ^ 31) : hasReaders flag = true := by
  refine bne_iff_ne.mpr fun none => ?_
  have halves : (flag.toNat &&& 0x7FFFFFFE) / 2 = flag.toNat / 2 % 2 ^ 30 := by
    rw [and_div_two]
    exact and_two_pow_sub_one_eq_mod (flag.toNat / 2) 30
  have zero : flag.toNat &&& 0x7FFFFFFE = 0 := congrArg BitVec.toNat none
  omega

theorem toNat_or_waiters (clear : hasWaiters flag = false) :
    (flag ||| waiters).toNat = flag.toNat + 2 ^ 31 := by
  have small : flag.toNat < 2 ^ 31 := by
    have := mt (hasWaiters_iff flag).mpr (by rw [clear]; decide)
    omega
  rw [toNat_or, Nat.or_comm]
  exact (Nat.two_pow_add_eq_or_of_lt small 1).symm.trans (Nat.add_comm _ _)

theorem toNat_clear (flag : BitVec 32) : (flag &&& 0x7FFFFFFF).toNat = flag.toNat % 2 ^ 31 :=
  (toNat_and ..).trans (and_two_pow_sub_one_eq_mod flag.toNat 31)

/-- The word, the numbers of its holders, and whether some thread is clearing the waiter bit, some
thread sleeps, and some thread will set the bit or wake a sleeper before it leaves. -/
structure Good (flag : BitVec 32) (w r : Nat) (clearing sleeps rouses : Prop) : Prop where
  word : flag.toNat = w + 2 * r + if hasWaiters flag then 2 ^ 31 else 0
  single : w ≤ 1
  apart : w = 1 → r = 0
  few : r < 2 ^ 30
  orphan : hasWaiters flag = true → w + r = 0 → clearing
  covered : sleeps → hasWaiters flag = true ∧ 0 < w + r ∨ rouses

section Moves
variable {flag : BitVec 32} {w r : Nat} {clearing clearing' sleeps sleeps' rouses rouses' : Prop}

section
variable (good : Good flag w r clearing sleeps rouses) (clears : clearing → clearing')
include good clears

theorem Good.quiet
    (asleep : sleeps' → sleeps) (rouse : rouses → rouses') : Good flag w r clearing' sleeps' rouses' := by
  obtain ⟨word, single, apart, few, orphan, covered⟩ := good
  exact ⟨word, single, apart, few, fun bit none => clears (orphan bit none),
    fun sleep => (covered (asleep sleep)).imp id rouse⟩

theorem Good.settle
    (awake : ¬ sleeps') : Good flag w r clearing' sleeps' rouses' := by
  obtain ⟨word, single, apart, few, orphan, covered⟩ := good
  exact ⟨word, single, apart, few, fun bit none => clears (orphan bit none), fun sleep => absurd sleep awake⟩

end

/-- Whoever relies on the thread that takes the lock finds the waiter bit set. -/
theorem Good.takeWriter (good : Good 0 w r clearing sleeps rouses) (asleep : sleeps' → sleeps)
    (taken : flag.toNat = 1 + if hasWaiters flag then 2 ^ 31 else 0)
    (rouse : rouses → hasWaiters flag = true ∨ rouses') : Good flag (1 + w) r clearing' sleeps' rouses' := by
  obtain ⟨word, single, apart, few, orphan, covered⟩ := good
  have free : 0 = w + 2 * r + 0 := word
  refine ⟨by omega, by omega, by omega, by omega, by omega, fun sleep => ?_⟩
  rcases covered (asleep sleep) with held | other
  · exact absurd held.1 (by decide)
  · exact (rouse other).imp (fun bit => ⟨bit, by omega⟩) id

theorem toNat_addReader {prev : BitVec 32} (room : prev.toNat + 2 < 2 ^ 31) (slow : Bool) :
    let flag := if slow then (prev + 2) ||| waiters else prev + 2
    hasWaiters flag = slow ∧ flag.toNat = prev.toNat + 2 + if hasWaiters flag then 2 ^ 31 else 0 := by
  have sum : (prev + 2).toNat = prev.toNat + 2 := by
    exact mod_eq_of_lt (by change prev.toNat + 2 < 2 ^ 32; omega)
  have clear : hasWaiters (prev + 2) = false := by
    rw [Bool.eq_false_iff, ne_eq, hasWaiters_iff]
    omega
  cases slow
  · refine ⟨clear, ?_⟩
    simp only [false_eq_true, if_false, clear]
    exact sum
  · have more := toNat_or_waiters clear
    have set : hasWaiters ((prev + 2) ||| waiters) = true := by
      rw [hasWaiters_iff]
      omega
    refine ⟨set, ?_⟩
    simp only [if_true, set]
    omega

theorem Good.takeReader (good : Good flag w r clearing sleeps rouses) (free : available flag .reader = true)
    (room : 1 + r < 2 ^ 30) {slow : Bool} (asleep : sleeps' → sleeps) (rouse : rouses → slow = true ∨ rouses') :
    Good (if slow then (flag + 2) ||| waiters else flag + 2) w (1 + r) clearing' sleeps' rouses' := by
  obtain ⟨word, single, apart, few, orphan, covered⟩ := good
  simp only [available, Bool.not_eq_true', Bool.or_eq_false_iff] at free
  have even : ¬ flag.toNat % 2 = 1 := by
    rw [← hasWriter_iff, free.1]
    decide
  rw [free.2] at word covered
  simp only [false_eq_true, if_false, false_and, false_or] at word covered
  obtain ⟨marked, taken⟩ := toNat_addReader (show flag.toNat + 2 < 2 ^ 31 by omega) slow
  refine ⟨by omega, by omega, by omega, by omega, by omega, fun sleep => ?_⟩
  rw [marked]
  exact (rouse (covered (asleep sleep))).imp (fun bit => ⟨bit, by omega⟩) id

theorem Good.writerWord (good : Good flag (1 + w) r clearing sleeps rouses) :
    flag = if hasWaiters flag then 0x80000001 else 1 := by
  obtain ⟨word, single, apart, few, orphan, covered⟩ := good
  apply eq_of_toNat_eq
  cases bit : hasWaiters flag
  · rw [bit] at word
    change flag.toNat = 1
    simp only [false_eq_true, if_false] at word
    omega
  · rw [bit] at word
    change flag.toNat = 2147483649
    simp only [if_true] at word
    omega

theorem Good.dropWriter (good : Good flag (1 + w) r clearing sleeps rouses) (asleep : sleeps' → sleeps)
    (rouse : hasWaiters flag = true ∨ rouses → rouses') : Good 0 w r clearing' sleeps' rouses' := by
  obtain ⟨word, single, apart, few, orphan, covered⟩ := good
  refine ⟨?_, by omega, by omega, by omega, nofun, fun sleep => .inr (rouse ?_)⟩
  · change 0 = w + 2 * r + 0
    omega
  · exact (covered (asleep sleep)).imp And.left id

theorem Good.readerWord (good : Good flag w (1 + r) clearing sleeps rouses) :
    (flag - 2).toNat = flag.toNat - 2 ∧ hasWaiters (flag - 2) = hasWaiters flag ∧ hasWriter flag = false ∧
      hasReaders flag = true := by
  obtain ⟨word, single, apart, few, orphan, covered⟩ := good
  have less : (flag - 2).toNat = flag.toNat - 2 := by
    change (2 ^ 32 - 2 + flag.toNat) % 2 ^ 32 = _
    split at word <;> omega
  refine ⟨less, ?_, ?_, hasReaders_of (by split at word <;> omega)⟩
  · rw [Bool.eq_iff_iff, hasWaiters_iff, hasWaiters_iff, less]
    split at word
    next bit =>
      omega
    next bit =>
      omega
  · rw [Bool.eq_false_iff, ne_eq, hasWriter_iff]
    split at word <;> omega

theorem Good.dropReader (good : Good flag w (1 + r) clearing sleeps rouses) (asleep : sleeps' → sleeps)
    (clears : hasWaiters flag = true → clearing') (rouse : hasWaiters flag = true ∨ rouses → rouses') :
    Good (flag - 2) w r clearing' sleeps' rouses' := by
  obtain ⟨less, same, -⟩ := good.readerWord
  obtain ⟨word, single, apart, few, orphan, covered⟩ := good
  refine ⟨?_, by omega, by omega, by omega, fun bit _ => clears (same ▸ bit), fun sleep => .inr (rouse ?_)⟩
  · rw [less, same]
    omega
  · exact (covered (asleep sleep)).imp And.left id

section
variable (good : Good flag w r clearing sleeps rouses)
include good

theorem Good.clear (rouse : rouses') :
    Good (flag &&& 0x7FFFFFFF) w r clearing' sleeps' rouses' := by
  obtain ⟨word, single, apart, few, orphan, covered⟩ := good
  have cut := toNat_clear flag
  have off : hasWaiters (flag &&& 0x7FFFFFFF) = false := by
    rw [Bool.eq_false_iff, ne_eq, hasWaiters_iff]
    omega
  refine ⟨?_, single, apart, few, fun bit => absurd bit (by rw [off]; decide), fun _ => .inr rouse⟩
  rw [off]
  simp only [false_eq_true, if_false]
  split at word <;> omega

theorem Good.mark (clear : hasWaiters flag = false)
    (taken : flag ≠ 0) (rouse : rouses') : Good (flag ||| waiters) w r clearing' sleeps' rouses' := by
  obtain ⟨word, single, apart, few, orphan, covered⟩ := good
  have more := toNat_or_waiters clear
  have set : hasWaiters (flag ||| waiters) = true := by
    rw [hasWaiters_iff]
    omega
  have nonzero : flag.toNat ≠ 0 := fun zero => taken (eq_of_toNat_eq zero)
  simp only [clear, false_eq_true, if_false] at word
  refine ⟨?_, single, apart, few, by omega, fun _ => .inr rouse⟩
  rw [set, if_pos rfl]
  omega

/-- Whoever falls asleep does so while the lock is held, or while a thread is clearing the bit. -/
theorem Good.sleep (bit : hasWaiters flag = true)
    (clears : clearing → clearing' ∧ rouses') : Good flag w r clearing' sleeps' rouses' := by
  obtain ⟨word, single, apart, few, orphan, covered⟩ := good
  refine ⟨word, single, apart, few, fun bit none => (clears (orphan bit none)).1, fun _ => ?_⟩
  by_cases none : w + r = 0
  · exact .inr (clears (orphan bit none)).2
  · exact .inl ⟨bit, by omega⟩
end

end Moves

/-- The thread will set the waiter bit or wake a sleeper before it leaves. -/
def Pc.rouses : Pc → Bool
  | .claim _ slow | .casClaim slow _ => slow
  | .look _ | .mark _ _ | .wait _ _ | .clearing | .waking => true
  | _ => false

/-- What a thread remembers of the word: a reader's CAS expects an available lock, a mark is put on
a held lock, and a futex is waited on only with the waiter bit. -/
def Pc.remembers : Pc → Prop
  | .casReader _ prev | .casClaim _ prev => available prev .reader = true
  | .mark _ seen => hasWaiters seen = false ∧ seen ≠ 0
  | .wait _ seen => hasWaiters seen = true
  | _ => True

structure Inv (s : State ι) : Prop where
  good : Good s.flag (s.count .writer) (s.count .reader) (∃ t, s.pc t = .clearing)
    (∃ t, (s.pc t).isBlocked = true) (∃ t, (s.pc t).rouses = true)
  memory : ∀ t, (s.pc t).remembers

/-! One thread, and the others. -/

def Pc.own (pc : Pc) (kind : Kind) : Nat := if pc = .held kind then 1 else 0

def State.rest (s : State ι) (t : ι) (kind : Kind) : Nat :=
  ((Finset.univ.erase t).filter fun u => s.pc u = .held kind).card

/-- The invariant with the thread at `pc` and the others as they are. -/
def GoodAt (s : State ι) (t : ι) (flag : BitVec 32) (pc : Pc) : Prop :=
  Good flag (pc.own .writer + s.rest t .writer) (pc.own .reader + s.rest t .reader)
    (pc = .clearing ∨ ∃ u ≠ t, s.pc u = .clearing) (pc.isBlocked = true ∨ ∃ u ≠ t, (s.pc u).isBlocked = true)
    (pc.rouses = true ∨ ∃ u ≠ t, (s.pc u).rouses = true)

theorem count_split (s : State ι) (t : ι) (kind : Kind) : s.count kind = (s.pc t).own kind + s.rest t kind := by
  have whole : (Finset.univ : Finset ι) = insert t (Finset.univ.erase t) :=
    (Finset.insert_erase (Finset.mem_univ t)).symm
  have absent : t ∉ (Finset.univ.erase t).filter fun u => s.pc u = .held kind := by simp
  rw [State.count, State.rest, Pc.own, whole, Finset.filter_insert, ← whole]
  by_cases holds : s.pc t = .held kind
  · rw [if_pos holds, if_pos holds, Finset.card_insert_of_notMem absent, add_comm]
  · rw [if_neg holds, if_neg holds, zero_add]

omit [Fintype ι] in
theorem exists_split (t : ι) (p : ι → Prop) : (∃ u, p u) ↔ p t ∨ ∃ u ≠ t, p u := by
  constructor
  · rintro ⟨u, holds⟩
    by_cases same : u = t
    · exact .inl (same ▸ holds)
    · exact .inr ⟨u, same, holds⟩
  · rintro (holds | ⟨u, -, holds⟩)
    · exact ⟨t, holds⟩
    · exact ⟨u, holds⟩

theorem goodAt_iff (s : State ι) (t : ι) :
    GoodAt s t s.flag (s.pc t) ↔ Good s.flag (s.count .writer) (s.count .reader) (∃ t, s.pc t = .clearing)
      (∃ t, (s.pc t).isBlocked = true) (∃ t, (s.pc t).rouses = true) := by
  rw [count_split s t, count_split s t, exists_split t, exists_split t fun u => (s.pc u).isBlocked = true,
    exists_split t fun u => (s.pc u).rouses = true]
  rfl

omit [Fintype ι] in
theorem goto_pc (s : State ι) (t : ι) (flag : BitVec 32) (pc : Pc) : (s.goto t flag pc).pc t = pc :=
  Function.update_self ..

omit [Fintype ι] in
theorem goto_pc_of_ne (s : State ι) {t u : ι} (flag : BitVec 32) (pc : Pc) (other : u ≠ t) :
    (s.goto t flag pc).pc u = s.pc u :=
  Function.update_of_ne other _ _

theorem goto_rest (s : State ι) (t : ι) (flag : BitVec 32) (pc : Pc) (kind : Kind) :
    (s.goto t flag pc).rest t kind = s.rest t kind := by
  refine congrArg Finset.card (Finset.filter_congr fun u member => ?_)
  rw [goto_pc_of_ne s flag pc (Finset.ne_of_mem_erase member)]

variable {s : State ι} {t : ι} {pc : Pc}

theorem Inv.goto (inv : Inv s) (good : GoodAt s t flag pc)
    (memory : pc.remembers) : Inv (s.goto t flag pc) := by
  have somebody (p : Pc → Prop) : (∃ u ≠ t, p ((s.goto t flag pc).pc u)) ↔ ∃ u ≠ t, p (s.pc u) :=
    exists_congr fun u => and_congr_right fun other => by rw [goto_pc_of_ne s flag pc other]
  refine ⟨(goodAt_iff _ t).mp ?_, fun u => ?_⟩
  · rw [GoodAt, goto_pc, goto_rest, goto_rest, somebody (· = .clearing), somebody (·.isBlocked = true),
      somebody (·.rouses = true)]
    exact good
  · by_cases same : u = t
    · rw [same, goto_pc]
      exact memory
    · rw [goto_pc_of_ne s flag pc same]
      exact inv.memory u

theorem Inv.goodAt (inv : Inv s) (here : s.pc t = pc) : GoodAt s t s.flag pc :=
  here ▸ (goodAt_iff s t).mpr inv.good

omit [DecidableEq ι] in
theorem Inv.remembers (inv : Inv s) (here : s.pc t = pc) : pc.remembers :=
  here ▸ inv.memory t

/-- The thread neither holds the lock nor is clearing the waiter bit. -/
def Pc.outside : Pc → Bool
  | .held _ | .clearing => false
  | _ => true

theorem Pc.own_eq_zero (outside : pc.outside = true) (kind : Kind) : pc.own kind = 0 := by
  refine if_neg fun holds => ?_
  rw [holds] at outside
  exact false_ne_true outside

theorem Pc.ne_clearing (outside : pc.outside = true) : pc ≠ .clearing := by
  rintro rfl
  cases outside

theorem Inv.drift (inv : Inv s) {pc pc' : Pc} (here : s.pc t = pc)
    (before : pc.outside = true)
    (after : pc'.outside = true) (awake : pc'.isBlocked = false) (rouse : pc.rouses = true → pc'.rouses = true)
    (memory : pc'.remembers) : Inv (s.goto t s.flag pc') := by
  refine inv.goto ?_ memory
  have good := inv.goodAt here
  rw [GoodAt, Pc.own_eq_zero before, Pc.own_eq_zero before] at good
  rw [GoodAt, Pc.own_eq_zero after, Pc.own_eq_zero after]
  refine good.quiet ?_ ?_ (Or.imp_left rouse)
  · exact fun clearing => clearing.imp_left fun same => absurd same (Pc.ne_clearing before)
  · rw [awake]
    exact fun asleep => .inr (asleep.resolve_left false_ne_true)

omit [DecidableEq ι] [Fintype ι] in
variable {kind : Kind}

theorem ne_zero_of_unavailable (busy : available flag kind = false) :
    flag ≠ 0 := by
  rintro rfl
  cases kind <;> cases busy

section
variable (inv : Inv s) (here : s.pc t = pc) (before : pc.outside = true)
include inv here before

theorem Inv.fallback (quiet : pc.rouses = false) (kind : Kind) (blocking : Bool) :
    Inv (s.goto t s.flag (.fallback kind blocking)) := by
  cases blocking
  all_goals exact inv.drift here before rfl rfl (fun rouse => absurd rouse (by rw [quiet]; decide)) trivial

theorem Inv.tryReadGate (quiet : pc.rouses = false) (blocking : Bool) :
    Inv (s.goto t s.flag (tryReadGate blocking s.flag)) := by
  unfold Spinlock.tryReadGate
  split
  next free => exact inv.drift here before rfl rfl (fun rouse => absurd rouse (by rw [quiet]; decide)) free
  next => exact inv.fallback here before quiet .reader blocking

theorem Inv.claimGate
    {slow : Bool} (rouse : pc.rouses = slow) : Inv (s.goto t s.flag (claimGate slow s.flag)) := by
  unfold Spinlock.claimGate
  split
  next free => exact inv.drift here before rfl rfl (fun rouses => rouse.symm.trans rouses) free
  next => exact inv.drift here before rfl rfl (fun _ => rfl) trivial

theorem Inv.takeWriter
    (free : s.flag = 0) : Inv (s.goto t (if pc.rouses then 1 ||| waiters else 1) (.held .writer)) := by
  refine inv.goto ?_ trivial
  have good := inv.goodAt here
  rw [GoodAt, Pc.own_eq_zero before, Pc.own_eq_zero before, zero_add, free] at good
  refine good.takeWriter ?_ ?_ ?_
  · exact fun asleep => .inr (asleep.resolve_left false_ne_true)
  · cases pc.rouses <;> decide
  · rintro (rouse | other)
    · rw [rouse]
      exact .inl (by decide)
    · exact .inr (.inr other)

theorem Inv.takeReader (free : available s.flag .reader = true)
    (room : (s.goto t (if pc.rouses then (s.flag + 2) ||| waiters else s.flag + 2) (.held .reader)).count .reader
      < 2 ^ 30) :
    Inv (s.goto t (if pc.rouses then (s.flag + 2) ||| waiters else s.flag + 2) (.held .reader)) := by
  rw [count_split _ t, goto_pc, goto_rest] at room
  refine inv.goto ?_ trivial
  have good := inv.goodAt here
  rw [GoodAt, Pc.own_eq_zero before, Pc.own_eq_zero before, zero_add, zero_add] at good
  rw [GoodAt, show (Pc.held .reader).own .writer = 0 from rfl, zero_add]
  refine good.takeReader free room ?_ ?_
  · exact fun asleep => .inr (asleep.resolve_left false_ne_true)
  · exact fun rouse => rouse.imp id .inr
end

section
variable (inv : Inv s)
include inv

theorem Inv.unlock (here : s.pc t = .held .writer) :
    Inv (s.goto t 0 (if s.flag = 1 then .out else spinLockWake s.flag)) := by
  have good := inv.goodAt here
  have word := good.writerWord
  have next : (if s.flag = 1 then Pc.out else spinLockWake s.flag) = if hasWaiters s.flag then .waking
    else .out := by
    rw [word]
    cases hasWaiters s.flag <;> decide
  rw [next]
  cases marked : hasWaiters s.flag
  · refine inv.goto ?_ trivial
    rw [GoodAt, Pc.own_eq_zero rfl, zero_add]
    refine good.dropWriter (.imp_left id) ?_
    rintro (bit | rouse)
    · exact absurd (marked.symm.trans bit) false_ne_true
    · exact rouse
  · refine inv.goto ?_ trivial
    rw [GoodAt, Pc.own_eq_zero rfl, zero_add]
    exact good.dropWriter (.imp_left id) fun _ => .inl rfl

theorem Inv.readUnlock (here : s.pc t = .held .reader) :
    Inv (s.goto t (s.flag - 2) (if s.flag.toInt < 2 then spinReadLockWake s.flag else .out)) := by
  have good := inv.goodAt here
  rw [GoodAt, show (Pc.held .reader).own .writer = 0 from rfl, zero_add,
    show (Pc.held .reader).own .reader = 1 from rfl] at good
  obtain ⟨-, -, noWriter, readers⟩ := good.readerWord
  have counted := good.word
  rw [spinReadLockWake, noWriter, readers]
  cases marked : hasWaiters s.flag
  · have clear := mt (hasWaiters_iff s.flag).mpr (by rw [marked]; decide)
    rw [if_neg (by rw [toInt_eq_toNat_cond]; split <;> omega)]
    refine inv.goto ?_ trivial
    rw [GoodAt, Pc.own_eq_zero rfl, zero_add, Pc.own_eq_zero rfl, zero_add]
    refine good.dropReader (.imp_left id) ?_ ?_
    · exact fun bit => absurd (marked.symm.trans bit) false_ne_true
    · rintro (bit | rouse)
      · exact absurd (marked.symm.trans bit) false_ne_true
      · exact rouse
  · have set := (hasWaiters_iff s.flag).mp marked
    rw [if_pos (by rw [toInt_eq_toNat_cond]; split <;> omega)]
    refine inv.goto ?_ trivial
    change Good _ (0 + s.rest t .writer) (0 + s.rest t .reader) _ _ _
    rw [zero_add, zero_add]
    exact good.dropReader (.imp_left id) (fun _ => .inl rfl) fun _ => .inl rfl

theorem Inv.clear (here : s.pc t = .clearing) :
    Inv (s.goto t (s.flag &&& 0x7FFFFFFF) .waking) :=
  inv.goto ((inv.goodAt here).clear (.inl rfl)) trivial

theorem Inv.mark {seen : BitVec 32}
    (here : s.pc t = .mark kind seen) (same : s.flag = seen) :
    Inv (s.goto t (seen ||| waiters) (.wait kind (seen ||| waiters))) := by
  obtain ⟨clear, taken⟩ := inv.remembers here
  have good := inv.goodAt here
  rw [same] at good
  refine inv.goto (good.mark clear taken (.inl rfl)) ?_
  change hasWaiters (seen ||| waiters) = true
  rw [hasWaiters_iff, toNat_or_waiters clear]
  omega

theorem Inv.sleep {seen : BitVec 32}
    (here : s.pc t = .wait kind seen) (same : s.flag = seen) : Inv (s.goto t s.flag (.blocked kind)) := by
  refine inv.goto ((inv.goodAt here).sleep (same ▸ inv.remembers here) ?_) trivial
  rintro (clearing | ⟨u, other, clearing⟩)
  · cases clearing
  · exact ⟨.inr ⟨u, other, clearing⟩, .inr ⟨u, other, by rw [clearing]; rfl⟩⟩

/-- A woken thread looks at the lock again, so the waker is no longer needed. -/
theorem Inv.wake {t u : ι} (here : s.pc t = .waking)
    (asleep : s.pc u = .blocked kind) : Inv ((s.goto u s.flag (.look kind)).goto t s.flag .out) := by
  have other : t ≠ u := by
    rintro rfl
    exact absurd (here.symm.trans asleep) (by simp)
  have woken : Inv (s.goto u s.flag (.look kind)) :=
    inv.drift asleep rfl rfl rfl (fun _ => rfl) trivial
  have here' : (s.goto u s.flag (.look kind)).pc t = .waking := (goto_pc_of_ne s _ _ other).trans here
  refine woken.goto ((woken.goodAt here').quiet ?_ ?_ fun _ => .inr ⟨u, other.symm, ?_⟩) trivial
  · exact fun clearing => .inr (clearing.resolve_left (by simp))
  · exact fun sleeps => .inr (sleeps.resolve_left false_ne_true)
  · rw [goto_pc]
    rfl

theorem Inv.wakeNobody (here : s.pc t = .waking)
    (awake : ¬ ∃ u, (s.pc u).isBlocked) : Inv (s.goto t s.flag .out) := by
  refine inv.goto ((inv.goodAt here).settle ?_ ?_) trivial
  · exact fun clearing => .inr (clearing.resolve_left (by simp))
  · rintro (sleeps | ⟨u, -, sleeps⟩)
    · exact false_ne_true sleeps
    · exact awake ⟨u, sleeps⟩

theorem Inv.look (here : s.pc t = .look kind) :
    Inv (s.goto t s.flag (if available s.flag kind then .claim kind true else if hasWaiters s.flag then
      .wait kind s.flag else .mark kind s.flag)) := by
  split
  next => exact inv.drift here rfl rfl rfl (fun _ => rfl) trivial
  next busy =>
    split
    next marked => exact inv.drift here rfl rfl rfl (fun _ => rfl) marked
    next clear =>
      exact inv.drift here rfl rfl rfl (fun _ => rfl)
        ⟨Bool.eq_false_iff.mpr clear, ne_zero_of_unavailable (Bool.eq_false_iff.mpr busy)⟩
end

theorem step_inv (s : State ι) (event : ι × Choice ι) (inv : Inv s)
    (room : (step s event).count .reader < 2 ^ 30) :
    Inv (step s event) := by
  obtain ⟨t, choice⟩ := event
  unfold step at room ⊢
  cases here : s.pc t with
  | out =>
    simp only [here]
    cases choice.call <;> exact inv.drift here rfl rfl rfl (fun rouse => rouse) trivial
  | held kind =>
    cases kind with
    | writer =>
      simp only [here]
      exact inv.unlock here
    | reader =>
      simp only [here]
      exact inv.readUnlock here
  | casWriter blocking =>
    simp only [here]
    split
    next free => exact inv.takeWriter here rfl free.1
    next => exact inv.fallback here rfl rfl .writer blocking
  | loadReader blocking =>
    simp only [here]
    exact inv.tryReadGate here rfl rfl blocking
  | casReader blocking prev =>
    simp only [here] at room ⊢
    split at room
    next same =>
      rw [if_pos same]
      obtain ⟨rfl, -⟩ := same
      exact inv.takeReader here rfl (inv.remembers here) room
    next other =>
      rw [if_neg other]
      exact inv.tryReadGate here rfl rfl blocking
  | spin kind left =>
    simp only [here]
    split
    next => exact inv.drift here rfl rfl rfl (fun rouse => rouse) trivial
    next =>
      split
      next => exact inv.drift here rfl rfl rfl (fun _ => rfl) trivial
      next => exact inv.drift here rfl rfl rfl (fun rouse => rouse) trivial
  | claim kind slow =>
    cases kind with
    | writer =>
      simp only [here]
      split
      next free => exact inv.takeWriter here rfl free
      next => exact inv.drift here rfl rfl rfl (fun _ => rfl) trivial
    | reader =>
      simp only [here]
      exact inv.claimGate here rfl rfl
  | casClaim slow prev =>
    simp only [here] at room ⊢
    split at room
    next same =>
      rw [if_pos same]
      obtain ⟨rfl, -⟩ := same
      exact inv.takeReader here rfl (inv.remembers here) room
    next other =>
      rw [if_neg other]
      exact inv.claimGate here rfl rfl
  | look kind =>
    simp only [here]
    exact inv.look here
  | mark kind seen =>
    simp only [here]
    split
    next same => exact inv.mark here same
    next => exact inv.drift here rfl rfl rfl (fun _ => rfl) trivial
  | wait kind seen =>
    simp only [here]
    split
    next same => exact inv.sleep here same
    next => exact inv.drift here rfl rfl rfl (fun _ => rfl) trivial
  | blocked kind =>
    simp only [here]
    split
    next => exact inv.drift here rfl rfl rfl (fun _ => rfl) trivial
    next => exact inv
  | clearing =>
    simp only [here]
    exact inv.clear here
  | waking =>
    simp only [here]
    split
    next asleep => exact inv.wake here asleep
    next =>
      split
      next => exact inv
      next awake => exact inv.wakeNobody here awake
  | crashed =>
    simp only [here]
    exact inv

def initial (ι : Type) : State ι := ⟨0, fun _ => .out⟩

omit [DecidableEq ι] in
theorem initial_inv : Inv (initial ι) := by
  have nobody (kind : Kind) : (initial ι).count kind = 0 := by
    simp [State.count, initial]
  have clear : hasWaiters (initial ι).flag = false := (by decide : hasWaiters 0 = false)
  refine ⟨⟨?_, ?_, ?_, ?_, ?_, ?_⟩, fun _ => trivial⟩
  · rw [nobody, nobody, clear]
    rfl
  · rw [nobody]
    decide
  · rw [nobody, nobody]
    decide
  · rw [nobody]
    decide
  · exact fun bit => absurd (clear.symm.trans bit) false_ne_true
  · rintro ⟨t, asleep⟩
    exact absurd asleep false_ne_true

omit [DecidableEq ι] in
theorem count_pos (some : 0 < s.count kind) : ∃ t, s.pc t = .held kind := by
  obtain ⟨t, member⟩ := Finset.card_pos.mp some
  exact ⟨t, (Finset.mem_filter.mp member).2⟩

omit [DecidableEq ι] [Fintype ι] in
theorem Pc.rouses_cases (rouses : pc.rouses = true) :
    pc.unlocks = true ∨ pc.wants = true ∧ pc.isBlocked = false := by
  cases pc with
  | clearing | waking => exact .inl rfl
  | claim | casClaim | look | mark | wait => exact .inr ⟨rfl, rfl⟩
  | _ => exact absurd rouses false_ne_true

omit [DecidableEq ι] in
/-- A sleeper's next waker is either a holder, an unlocking thread, or one that wants the lock and is awake. -/
theorem Inv.notLost (inv : Inv s) : ¬ LostWakeup s := by
  rintro ⟨free, unlocked, ⟨t, wants⟩, asleep⟩
  rcases inv.good.covered ⟨t, asleep t wants⟩ with ⟨-, held⟩ | ⟨u, rouses⟩
  · rcases add_pos_iff_pos_or_pos.mp held with writer | reader
    · obtain ⟨u, holds⟩ := count_pos writer
      exact free u _ holds
    · obtain ⟨u, holds⟩ := count_pos reader
      exact free u _ holds
  · rcases Pc.rouses_cases rouses with unlocks | ⟨wants, awake⟩
    · exact absurd ((unlocked u).symm.trans unlocks) false_ne_true
    · exact absurd (awake.symm.trans (asleep u wants)) false_ne_true

/-- In every run with fewer than `2 ^ 30` readers at a time, a writer never shares the lock and no
wake-up is lost. -/
theorem lock_run_safe (events : List (ι × Choice ι))
    (room : AllSteps step (fun s event => (step s event).count .reader < 2 ^ 30) (initial ι) events) :
    ∀ s ∈ visited step (initial ι) events, Exclusive s ∧ ¬ LostWakeup s := by
  intro s member
  have inv := invariant step_inv initial_inv room s member
  exact ⟨⟨inv.good.single, inv.good.apart⟩, inv.notLost⟩

omit [Fintype ι] in
theorem goto_uncrashed (fine : ∀ u, s.pc u ≠ .crashed) (next : pc ≠ .crashed) :
    ∀ u, (s.goto t flag pc).pc u ≠ .crashed :=
  (Function.forall_update_iff s.pc fun _ pc => pc ≠ .crashed).mpr ⟨next, fun u _ => fine u⟩

theorem step_uncrashed (inv : Inv s) (fine : ∀ u, s.pc u ≠ .crashed) (event : ι × Choice ι) :
    ∀ u, (step s event).pc u ≠ .crashed := by
  obtain ⟨t, choice⟩ := event
  unfold step
  cases here : s.pc t with
  | held kind =>
    have good := inv.goodAt here
    cases kind with
    | writer =>
      simp only [here]
      refine goto_uncrashed fine ?_
      rw [good.writerWord]
      cases hasWaiters s.flag <;> decide
    | reader =>
      obtain ⟨-, -, noWriter, readers⟩ := good.readerWord
      simp only [here, spinReadLockWake, noWriter, readers]
      refine goto_uncrashed fine ?_
      split
      next => cases hasWaiters s.flag <;> decide
      next => decide
  | claim kind =>
    cases kind <;> simp only [here, claimGate] <;> split <;> exact goto_uncrashed fine (by simp)
  | waking =>
    simp only [here]
    repeat' split
    · exact goto_uncrashed (goto_uncrashed fine (by simp)) (by simp)
    · exact fine
    · exact goto_uncrashed fine (by simp)
  | crashed => exact absurd here (fine t)
  | _ =>
    simp only [here, tryReadGate, claimGate, Pc.fallback]
    repeat' split
    all_goals first | exact fine | exact goto_uncrashed fine (by simp)

/-- With fewer than `2 ^ 30` readers at a time the word counts the holders, no unlock reports a
misuse, and a lock that every thread has left is as at the start. -/
theorem lock_word_exact (events : List (ι × Choice ι))
    (room : AllSteps step (fun s event => (step s event).count .reader < 2 ^ 30) (initial ι) events) :
    ∀ s ∈ visited step (initial ι) events,
      s.flag.toNat = s.count .writer + 2 * s.count .reader + (if hasWaiters s.flag then 2 ^ 31 else 0) ∧
      (∀ t, s.pc t ≠ .crashed) ∧ ((∀ t, s.pc t = .out) → s = initial ι) := by
  have run : ∀ s ∈ visited step (initial ι) events, Inv s ∧ ∀ u, s.pc u ≠ .crashed :=
    invariant (fun s event held room => ⟨step_inv s event held.1 room, step_uncrashed held.1 held.2 event⟩)
      ⟨initial_inv, by simp [initial]⟩ room
  intro s member
  obtain ⟨inv, fine⟩ := run s member
  refine ⟨inv.good.word, fine, fun left => ?_⟩
  have free (kind : Kind) : s.count kind = 0 := by simp [State.count, left]
  have word := inv.good.word
  split at word
  next bit =>
    obtain ⟨t, clearing⟩ := inv.good.orphan bit (by rw [free, free])
    exact absurd ((left t).symm.trans clearing) (by decide)
  next =>
    rw [free, free] at word
    obtain ⟨flag, pc⟩ := s
    exact congrArg₂ State.mk (eq_of_toNat_eq word) (funext left)

end

local instance threeNeZero : NeZero 3 := ⟨by decide⟩

def contended : List (Fin 3 × Choice (Fin 3)) :=
  [0, 0, 1, 1, 0, 1, 2, 2, 1, 1, 1, 1, 2, 2, 1, 1].map fun t => (t, ⟨.lock, false, 1⟩)

theorem lock_run_safe_contended :
    (final step (initial (Fin 3)) contended).flag = 0x80000001 ∧
      ∀ s ∈ visited step (initial (Fin 3)) contended, Exclusive s ∧ ¬ LostWakeup s :=
  ⟨by decide +kernel, lock_run_safe contended (by decide +kernel)⟩

theorem lock_word_exact_contended :
    (final step (initial (Fin 3)) contended).count .writer = 1 ∧
      ∀ t, (final step (initial (Fin 3)) contended).pc t ≠ .crashed :=
  ⟨by decide +kernel, (lock_word_exact contended (by decide +kernel) _ (final_mem_visited ..)).2.1⟩

end Rvvm.Spinlock
