import Rvvm.Library.Runs

/-! Wired interrupt lines: threads claim and release bits of a shared bitmap, one atomic operation
at a time. The bit claimed last is shown as free again by the loop of `rvvm_irq_alloc`, and of every
cell only the lowest free bit is ever tried. -/
namespace Rvvm.Irq
open Runs
open BitVec hiding lt_trichotomy
open Function (iterate_fixed update update_of_ne update_self)

def rvvmIrqInvalid : BitVec 32 := 0xFFFFFFFF

/-- A thread before its next atomic operation on the bitmap. -/
inductive Pc
  | out
  | load (cell : Fin 4) (irq : BitVec 32)
  | claim (cell : Fin 4) (nbit : Nat) (irq : BitVec 32)
  | done (result : BitVec 32)
  deriving DecidableEq

inductive Entry
  | taken (irq : BitVec 32)
  | released (irq : BitVec 32)

structure State (ι : Type) where
  irqs : Fin 4 → BitVec 32
  pc : ι → Pc
  log : List Entry

inductive Event
  | alloc (irq : BitVec 32)
  | run
  | dealloc (irq : BitVec 32)

/-- `bit_ctz32(~bits)`, as long as `~bits` is not zero. -/
def lowestClear (bits : BitVec 32) : Option Nat := (List.range 32).find? fun n => !bits.getLsbD n

section
variable {ι : Type} [DecidableEq ι] (base : BitVec 32)

def ident (cell : Fin 4) (nbit : Nat) : BitVec 32 := BitVec.ofNat 32 (cell * 32 + nbit) + base

def nextCell (cell : Fin 4) (irq : BitVec 32) : Pc :=
  if more : cell.val + 1 < 4 then .load ⟨cell.val + 1, more⟩ irq else .done rvvmIrqInvalid

/-- The condition and the first half of the body of the inner loop. -/
def scan (cell : Fin 4) (irq bits : BitVec 32) : Pc :=
  match lowestClear bits with
  | some nbit => if irq ≤ ident base cell nbit then .claim cell nbit irq else nextCell cell irq
  | none => nextCell cell irq

def State.goto (s : State ι) (t : ι) (pc : Pc) : State ι := { s with pc := update s.pc t pc }

def rvvmIrqDealloc (s : State ι) (irq : BitVec 32) : State ι :=
  let cell := ((irq - base) >>> 5).toNat
  let nbit := ((irq - base) &&& 0x1F).toNat
  let s := { s with log := .released irq :: s.log }
  if inside : cell < 4 then
    { s with irqs := update s.irqs ⟨cell, inside⟩ (s.irqs ⟨cell, inside⟩ &&& ~~~ twoPow 32 nbit) }
  else s

/-- A thread enters `rvvm_irq_alloc`, makes its next atomic operation there, or releases an identifier. -/
def step (s : State ι) (event : ι × Event) : State ι :=
  let (t, event) := event
  match event, s.pc t with
  | .alloc irq, .out | .alloc irq, .done _ => s.goto t (.load 0 irq)
  | .run, .load cell irq => s.goto t (scan base cell irq (s.irqs cell))
  | .run, .claim cell nbit irq =>
    let mask := twoPow 32 nbit
    let swap := s.irqs cell
    let s := { s with irqs := update s.irqs cell (swap ||| mask) }
    if swap.getLsbD nbit then s.goto t (scan base cell irq (swap &&& ~~~ mask))
    else { s.goto t (.done (ident base cell nbit)) with log := .taken (ident base cell nbit) :: s.log }
  | .dealloc irq, _ => rvvmIrqDealloc base s irq
  | _, _ => s

/-- The identifier was handed out and not released since; the newest entry is the first. -/
def HandedOut (irq : BitVec 32) : List Entry → Prop
  | [] => False
  | .taken other :: log => other = irq ∨ HandedOut irq log
  | .released other :: log => other ≠ irq ∧ HandedOut irq log

/-- Nothing was handed out that was not released before. -/
def NoDouble : List Entry → Prop
  | [] => True
  | .taken irq :: log => ¬ HandedOut irq log ∧ NoDouble log
  | .released _ :: log => NoDouble log

def alone (t : ι) (n : Nat) (s : State ι) : State ι := (fun s => step base s (t, .run))^[n] s

def Pc.inCall : Pc → Bool
  | .load _ _ | .claim _ _ _ => true
  | _ => false

def Terminates (s : State ι) (t : ι) : Prop := ∃ n, ((alone base t n s).pc t).inCall = false

/-- A call made by `t`, with nobody else at work, returns `result`. -/
def Returns (s : State ι) (t : ι) (irq result : BitVec 32) : Prop :=
  ∃ n, (alone base t n (s.goto t (.load 0 irq))).pc t = .done result

def Eligible (irqs : Fin 4 → BitVec 32) (irq : BitVec 32) (cell : Fin 4) (nbit : Nat) : Prop :=
  nbit < 32 ∧ (irqs cell).getLsbD nbit = false ∧ irq ≤ ident base cell nbit

def Smallest (irqs : Fin 4 → BitVec 32) (irq : BitVec 32) (cell : Fin 4) (nbit : Nat) : Prop :=
  Eligible base irqs irq cell nbit ∧
    ∀ cell' nbit', Eligible base irqs irq cell' nbit' → ident base cell nbit ≤ ident base cell' nbit'

def Correct (irqs : Fin 4 → BitVec 32) (irq result : BitVec 32) : Prop :=
  (∃ cell nbit, Smallest base irqs irq cell nbit ∧ result = ident base cell nbit ∧ result ≠ rvvmIrqInvalid) ∨
    result = rvvmIrqInvalid ∧ ∀ cell nbit, ¬ Eligible base irqs irq cell nbit

/-- The lowest free bit of the cell, if any, is below the requested identifier. -/
def Passed (irqs : Fin 4 → BitVec 32) (irq : BitVec 32) (cell : Fin 4) : Prop :=
  ∀ nbit, lowestClear (irqs cell) = some nbit → ident base cell nbit < irq

/-- The smallest eligible identifier is found: it is the lowest free bit of its cell, the cells before it have no
eligible lowest free bit, and it is not the invalid identifier. -/
def InReach (irqs : Fin 4 → BitVec 32) (irq : BitVec 32) : Prop :=
  ∀ cell nbit, Smallest base irqs irq cell nbit →
    lowestClear (irqs cell) = some nbit ∧ (∀ cell' < cell, Passed base irqs irq cell') ∧
      ident base cell nbit ≠ rvvmIrqInvalid

/-- The thread is about to claim a bit that is taken, as are all bits below it in the cell. -/
def Stuck (s : State ι) (t : ι) : Prop :=
  ∃ cell nbit irq, s.pc t = .claim cell nbit irq ∧ ∀ n ≤ nbit, (s.irqs cell).getLsbD n = true

/-! ## Bits and identifiers -/

variable {nbit : Nat}

theorem lowestClear_eq_some {bits : BitVec 32} :
    lowestClear bits = some nbit ↔ nbit < 32 ∧ bits.getLsbD nbit = false ∧ ∀ n < nbit, bits.getLsbD n = true := by
  simp only [lowestClear, List.find?_range_eq_some, List.mem_range, Bool.not_eq_true', Bool.not_not]
  tauto

theorem getLsbD_set (bits : BitVec 32) {n : Nat} (small : n < 32) (m : Nat) :
    (bits ||| twoPow 32 n).getLsbD m = (bits.getLsbD m || decide (n = m)) := by
  rw [getLsbD_or, getLsbD_twoPow, decide_eq_true small, Bool.true_and]

theorem getLsbD_unset (bits : BitVec 32) {n m : Nat} (small : n < 32) :
    (bits &&& ~~~ twoPow 32 n).getLsbD m = (bits.getLsbD m && decide (n ≠ m)) := by
  rw [getLsbD_and, getLsbD_not, getLsbD_twoPow, decide_eq_true small, Bool.true_and,
    decide_not]
  by_cases inside : m < 32
  · rw [decide_eq_true inside, Bool.true_and]
  · rw [getLsbD_of_ge _ _ (Nat.le_of_not_lt inside), Bool.false_and, Bool.false_and]

variable {base}

theorem ident_inj {cell cell' : Fin 4} {nbit nbit' : Nat} (small : nbit < 32) (small' : nbit' < 32)
    (same : ident base cell nbit = ident base cell' nbit') : cell = cell' ∧ nbit = nbit' := by
  have offsets := congrArg BitVec.toNat ((BitVec.add_left_inj base).mp same)
  rw [BitVec.toNat_ofNat, BitVec.toNat_ofNat] at offsets
  exact ⟨Fin.ext (by omega), by omega⟩

variable {irq : BitVec 32}

theorem ident_dealloc (inside : ((irq - base) >>> 5).toNat < 4) :
    ident base ⟨_, inside⟩ ((irq - base) &&& 0x1F).toNat = irq := by
  have cut : ((irq - base) &&& 0x1F).toNat = (irq - base).toNat % 32 :=
    (toNat_and ..).trans (Nat.and_two_pow_sub_one_eq_mod _ 5)
  have shift : ((irq - base) >>> 5).toNat = (irq - base).toNat / 32 := by
    rw [toNat_ushiftRight, Nat.shiftRight_eq_div_pow]
  have whole : ((irq - base) >>> 5).toNat * 32 + ((irq - base) &&& 0x1F).toNat = (irq - base).toNat := by
    omega
  rw [ident, whole, ofNat_toNat, setWidth_eq, sub_add_cancel]

theorem goto_pc (s : State ι) (t : ι) (pc : Pc) : (s.goto t pc).pc t = pc := update_self ..

theorem scan_cases (base : BitVec 32) (cell : Fin 4) (irq bits : BitVec 32) :
    (∃ nbit, lowestClear bits = some nbit ∧ irq ≤ ident base cell nbit ∧ scan base cell irq bits
      = .claim cell nbit irq) ∨
      (∀ nbit, lowestClear bits = some nbit → ident base cell nbit < irq) ∧
        scan base cell irq bits = nextCell cell irq := by
  unfold scan
  cases lowest : lowestClear bits with
  | none => exact .inr ⟨nofun, rfl⟩
  | some nbit =>
    by_cases reached : irq ≤ ident base cell nbit
    · exact .inl ⟨nbit, rfl, reached, if_pos reached⟩
    · refine .inr ⟨fun _ found => ?_, if_neg reached⟩
      rw [← Option.some.inj found]
      exact BitVec.not_le.mp reached

/-! ## What every run keeps -/

/-- A claim is only made for a bit of a requested identifier. -/
def Pc.Sound (base : BitVec 32) : Pc → Prop
  | .claim cell nbit irq => nbit < 32 ∧ irq ≤ ident base cell nbit
  | _ => True

theorem nextCell_sound (cell : Fin 4) (irq : BitVec 32) : (nextCell cell irq).Sound base := by
  unfold nextCell
  split <;> trivial

theorem scan_sound (cell : Fin 4) (irq bits : BitVec 32) : (scan base cell irq bits).Sound base := by
  rcases scan_cases base cell irq bits with ⟨nbit, lowest, reached, claims⟩ | ⟨-, moves⟩
  · rw [claims]
    exact ⟨(lowestClear_eq_some.mp lowest).1, reached⟩
  · rw [moves]
    exact nextCell_sound cell irq

def IsSet (base : BitVec 32) (irqs : Fin 4 → BitVec 32) (irq : BitVec 32) : Prop :=
  ∃ cell nbit, nbit < 32 ∧ irq = ident base cell nbit ∧ (irqs cell).getLsbD nbit = true

structure Inv (base : BitVec 32) (s : State ι) : Prop where
  sound : ∀ t, (s.pc t).Sound base
  held : ∀ irq, HandedOut irq s.log → IsSet base s.irqs irq
  single : NoDouble s.log

variable {s : State ι}

theorem Inv.goto (inv : Inv base s) (t : ι) {pc : Pc} (sound : pc.Sound base) :
    Inv base (s.goto t pc) := by
  refine ⟨fun u => ?_, inv.held, inv.single⟩
  by_cases same : u = t
  · rw [same, goto_pc]
    exact sound
  · rw [show (s.goto t pc).pc u = s.pc u from update_of_ne same _ _]
    exact inv.sound u

variable {irqs : Fin 4 → BitVec 32} {cell : Fin 4}

theorem isSet_claim (small : nbit < 32) :
    IsSet base (update irqs cell (irqs cell ||| twoPow 32 nbit)) irq ↔
      irq = ident base cell nbit ∨ IsSet base irqs irq := by
  constructor
  · rintro ⟨cell', nbit', small', rfl, set⟩
    by_cases same : cell' = cell
    · subst same
      rw [update_self, getLsbD_set _ small, Bool.or_eq_true, decide_eq_true_iff] at set
      rcases set with set | rfl
      · exact .inr ⟨cell', nbit', small', rfl, set⟩
      · exact .inl rfl
    · rw [update_of_ne same] at set
      exact .inr ⟨cell', nbit', small', rfl, set⟩
  · rintro (rfl | ⟨cell', nbit', small', rfl, set⟩)
    · refine ⟨cell, nbit, small, rfl, ?_⟩
      rw [update_self, getLsbD_set _ small, decide_eq_true rfl, Bool.or_true]
    · refine ⟨cell', nbit', small', rfl, ?_⟩
      by_cases same : cell' = cell
      · subst same
        rw [update_self, getLsbD_set _ small, set, Bool.true_or]
      · rw [update_of_ne same]
        exact set

omit [DecidableEq ι] in
theorem Inv.dealloc (inv : Inv base s) (irq : BitVec 32) : Inv base (rvvmIrqDealloc base s irq) := by
  unfold rvvmIrqDealloc
  dsimp only
  split
  next inside =>
    refine ⟨inv.sound, fun other out => ?_, inv.single⟩
    obtain ⟨cell, nbit, small, rfl, set⟩ := inv.held other out.2
    refine ⟨cell, nbit, small, rfl, ?_⟩
    have low : ((irq - base) &&& 0x1F).toNat < 32 :=
      (toNat_and ..).trans_lt (Nat.and_lt_two_pow _ (by decide : (0x1F : Nat) < 2 ^ 5))
    dsimp only
    by_cases same : cell = ⟨_, inside⟩
    · rw [same, update_self, getLsbD_unset _ low, ← same, set, Bool.true_and, decide_eq_true_iff]
      rintro rfl
      exact out.1 (by rw [same, ident_dealloc inside])
    · rw [update_of_ne same]
      exact set
  next => exact ⟨inv.sound, fun other out => inv.held other out.2, inv.single⟩

theorem step_inv (s : State ι) (event : ι × Event) (inv : Inv base s) : Inv base (step base s event) := by
  obtain ⟨t, event⟩ := event
  unfold step
  dsimp only
  split
  · exact inv.goto t trivial
  · exact inv.goto t trivial
  · exact inv.goto t (scan_sound _ _ _)
  next cell nbit irq here =>
    obtain ⟨small, -⟩ : (Pc.claim cell nbit irq).Sound base := here ▸ inv.sound t
    split
    next set =>
      have kept :
          Inv base { s with irqs := update s.irqs cell (s.irqs cell ||| twoPow 32 nbit) } :=
        ⟨inv.sound, fun other out => (isSet_claim small).mpr (.inr (inv.held other out)), inv.single⟩
      exact kept.goto t (scan_sound _ _ _)
    next clear =>
      have fresh : ¬ HandedOut (ident base cell nbit) s.log := by
        intro out
        obtain ⟨cell', nbit', small', same, set⟩ := inv.held _ out
        obtain ⟨rfl, rfl⟩ := ident_inj small small' same
        exact clear set
      refine ⟨(inv.goto t (show (Pc.done (ident base cell nbit)).Sound base from trivial)).sound, ?_, fresh,
        inv.single⟩
      rintro other (rfl | out)
      · exact (isSet_claim small).mpr (.inl rfl)
      · exact (isSet_claim small).mpr (.inr (inv.held other out))
  · exact inv.dealloc _
  · exact inv

theorem alone_add (t : ι) (n m : Nat) (s : State ι) : alone base t (n + m) s = alone base t n (alone base t m s) :=
  Function.iterate_add_apply _ n m s

variable {t : ι}

theorem run_of_not_inCall (idle : (s.pc t).inCall = false) : step base s (t, .run) = s := by
  cases here : s.pc t with
  | load | claim => exact absurd (here ▸ idle) (by simp [Pc.inCall])
  | out | done => simp [step, here]

theorem alone_of_not_inCall (idle : (s.pc t).inCall = false) (n : Nat) :
    alone base t n s = s :=
  iterate_fixed (run_of_not_inCall idle) n

theorem alone_done_unique {n m : Nat} {result result' : BitVec 32}
    (returns : (alone base t n s).pc t = .done result) (returns' : (alone base t m s).pc t = .done result') :
    result = result' := by
  have stays : ∀ {k : Nat} {r : BitVec 32} (j : Nat), (alone base t k s).pc t = .done r →
      (alone base t (j + k) s).pc t = .done r := by
    intro k r j here
    rw [alone_add, alone_of_not_inCall (by rw [here]; rfl), here]
  have left := stays m returns
  have right := stays n returns'
  rw [Nat.add_comm, left] at right
  exact Pc.done.inj right

theorem claim_free
    (here : s.pc t = .claim cell nbit irq) (clear : (s.irqs cell).getLsbD nbit = false) :
    (alone base t 1 s).pc t = .done (ident base cell nbit) := by
  simp [alone, step, here, clear, State.goto]

theorem run_load (base : BitVec 32)
    (here : s.pc t = .load cell irq) :
    alone base t 1 s = s.goto t (scan base cell irq (s.irqs cell)) := by
  simp [alone, step, here]

theorem load_returns (base : BitVec 32) (s : State ι) (t : ι) (cell : Fin 4) (irq : BitVec 32)
    (here : s.pc t = .load cell irq) :
    ∃ n result, (alone base t n s).pc t = .done result ∧
      ((∃ found nbit, cell ≤ found ∧ (∀ cell' < found, cell ≤ cell' → Passed base s.irqs irq cell') ∧
          lowestClear (s.irqs found) = some nbit ∧ irq ≤ ident base found nbit ∧ result = ident base found nbit) ∨
        result = rvvmIrqInvalid ∧ ∀ cell' ≥ cell, Passed base s.irqs irq cell') := by
  induction left : 3 - cell.val using Nat.strong_induction_on generalizing s cell with
  | _ left ih =>
  have first := run_load base here
  rcases scan_cases base cell irq (s.irqs cell) with ⟨nbit, lowest, reached, claims⟩ | ⟨passed, moves⟩
  · rw [claims] at first
    refine ⟨1 + 1, ident base cell nbit, ?_, .inl ⟨cell, nbit, le_rfl, ?_, lowest, reached, rfl⟩⟩
    · rw [alone_add, first]
      exact claim_free (goto_pc ..) (lowestClear_eq_some.mp lowest).2.1
    · exact fun cell' before after => absurd (before.trans_le after) (lt_irrefl _)
  · have here' : (alone base t 1 s).pc t = nextCell cell irq := by
      rw [first, moves, goto_pc]
    have kept : (alone base t 1 s).irqs = s.irqs := by
      rw [first]
      rfl
    unfold nextCell at here'
    split at here'
    next more =>
      obtain ⟨n, result, returns, found⟩ := ih (3 - (cell.val + 1)) (by omega) _ _ here' rfl
      rw [kept] at found
      have covers : ∀ cell' : Fin 4, cell ≤ cell' → cell' = cell ∨ (⟨cell.val + 1, more⟩ : Fin 4) ≤ cell' := by
        intro cell' above
        simp only [Fin.le_def, Fin.ext_iff] at above ⊢
        omega
      refine ⟨n + 1, result, (alone_add t n 1 s).symm ▸ returns, found.imp ?_ ?_⟩
      · rintro ⟨target, nbit, above, before, rest⟩
        refine ⟨target, nbit, Fin.le_def.mpr (by have := Fin.le_def.mp above; simp only at this; omega), ?_, rest⟩
        intro cell' below above'
        rcases covers cell' above' with rfl | later
        · exact passed
        · exact before cell' below later
      · rintro ⟨invalid, all⟩
        refine ⟨invalid, fun cell' above => ?_⟩
        rcases covers cell' above with rfl | later
        · exact passed
        · exact all cell' later
    next last =>
      refine ⟨1, rvvmIrqInvalid, here', .inr ⟨rfl, fun cell' above => ?_⟩⟩
      have same : cell' = cell := by
        exact Fin.ext (by omega)
      exact same ▸ passed

theorem exists_smallest
    (eligible : Eligible base irqs irq cell nbit) : ∃ cell nbit, Smallest base irqs irq cell nbit := by
  classical
  obtain ⟨⟨cell, nbit⟩, member, least⟩ :=
    Finset.exists_min_image (Finset.univ.filter fun slot : Fin 4 × Fin 32 => Eligible base irqs irq slot.1 slot.2)
      (fun slot => (ident base slot.1 slot.2).toNat)
      ⟨(cell, ⟨nbit, eligible.1⟩), Finset.mem_filter.mpr ⟨Finset.mem_univ _, eligible⟩⟩
  refine ⟨cell, nbit, (Finset.mem_filter.mp member).2, fun cell' nbit' other => ?_⟩
  exact least (cell', ⟨nbit', other.1⟩) (Finset.mem_filter.mpr ⟨Finset.mem_univ _, other⟩)

theorem Smallest.unique {cell cell' : Fin 4} {nbit nbit' : Nat}
    (least : Smallest base irqs irq cell nbit) (least' : Smallest base irqs irq cell' nbit') :
    cell = cell' ∧ nbit = nbit' :=
  ident_inj least.1.1 least'.1.1 (BitVec.le_antisymm (least.2 _ _ least'.1) (least'.2 _ _ least.1))

/-- A call made alone is right exactly if what it should return is in reach of its scan. -/
theorem returns_correct_iff (s : State ι) (t : ι) (irq : BitVec 32) :
    (∃ result, Returns base s t irq result ∧ Correct base s.irqs irq result) ↔ InReach base s.irqs irq := by
  obtain ⟨n, result, returns, outcome⟩ :=
    load_returns base (s.goto t (.load 0 irq)) t 0 irq (goto_pc ..)
  have eligible : ∀ {found nbit}, lowestClear (s.irqs found) = some nbit → irq ≤ ident base found nbit →
      Eligible base s.irqs irq found nbit := fun lowest reached =>
    ⟨(lowestClear_eq_some.mp lowest).1, (lowestClear_eq_some.mp lowest).2.1, reached⟩
  constructor
  · rintro ⟨result', ⟨m, returns'⟩, correct⟩ cell nbit least
    obtain rfl := alone_done_unique returns returns'
    rcases correct with ⟨cell', nbit', least', value, valid⟩ | ⟨-, none⟩
    · obtain ⟨rfl, rfl⟩ := least'.unique least
      rcases outcome with ⟨found, nbit, -, before, lowest, reached, value'⟩ | ⟨invalid, -⟩
      · obtain ⟨rfl, rfl⟩ := ident_inj least.1.1 (eligible lowest reached).1 (value.symm.trans value')
        exact ⟨lowest, fun cell' below => before cell' below (Fin.zero_le _), value ▸ valid⟩
      · exact absurd invalid valid
    · exact absurd least.1 (none cell nbit)
  · intro reach
    refine ⟨result, ⟨n, returns⟩, ?_⟩
    rcases outcome with ⟨found, nbit, -, before, lowest, reached, rfl⟩ | ⟨rfl, all⟩
    · obtain ⟨cell, nbit', least⟩ := exists_smallest (eligible lowest reached)
      obtain ⟨lowest', passed, valid⟩ := reach cell nbit' least
      have same : found = cell := by
        rcases lt_trichotomy found cell with below | same | above
        · exact absurd (passed found below nbit lowest) (BitVec.not_lt.mpr reached)
        · exact same
        · exact absurd (before cell above (Fin.zero_le _) nbit' lowest') (BitVec.not_lt.mpr least.1.2.2)
      subst same
      obtain rfl := Option.some.inj (lowest.symm.trans lowest')
      exact .inl ⟨found, nbit, least, rfl, valid⟩
    · refine .inr ⟨rfl, fun cell nbit other => ?_⟩
      obtain ⟨cell, nbit, least⟩ := exists_smallest other
      exact BitVec.not_lt.mpr least.1.2.2 (all cell (Fin.zero_le _) nbit (reach cell nbit least).1)

theorem load_terminates (here : s.pc t = .load cell irq) :
    Terminates base s t := by
  obtain ⟨n, result, returns, -⟩ := load_returns base s t cell irq here
  exact ⟨n, by rw [returns]; rfl⟩

theorem Terminates.of_run (next : Terminates base (step base s (t, .run)) t) :
    Terminates base s t := by
  obtain ⟨n, ends⟩ := next
  exact ⟨n + 1, ends⟩

theorem run_claim_taken
    (here : s.pc t = .claim cell nbit irq) (small : nbit < 32) (taken : (s.irqs cell).getLsbD nbit = true) :
    step base s (t, .run) = s.goto t (scan base cell irq (s.irqs cell &&& ~~~ twoPow 32 nbit)) := by
  have same : s.irqs cell ||| twoPow 32 nbit = s.irqs cell := by
    refine eq_of_getLsbD_eq fun n _ => ?_
    rw [getLsbD_set _ small]
    by_cases at_ : nbit = n
    · rw [← at_, taken, Bool.true_or]
    · rw [decide_eq_false at_, Bool.or_false]
  simp [step, here, taken, same]

/-- A thread that claims a taken bit with no free bit below it claims it again. -/
theorem Stuck.run (stuck : Stuck s t) (sound : (s.pc t).Sound base) :
    step base s (t, .run) = s := by
  obtain ⟨cell, nbit, irq, here, taken⟩ := stuck
  obtain ⟨small, reached⟩ : nbit < 32 ∧ irq ≤ ident base cell nbit := by
    rw [here] at sound
    exact sound
  have lowest : lowestClear (s.irqs cell &&& ~~~ twoPow 32 nbit) = some nbit := by
    refine lowestClear_eq_some.mpr ⟨small, ?_, fun n below => ?_⟩
    · rw [getLsbD_unset _ small, decide_eq_false (by simp), Bool.and_false]
    · rw [getLsbD_unset _ small, taken n below.le, decide_eq_true (by omega : nbit ≠ n), Bool.and_true]
  have again : scan base cell irq (s.irqs cell &&& ~~~ twoPow 32 nbit) = s.pc t := by
    rw [scan, lowest, here]
    exact if_pos reached
  rw [run_claim_taken here small (taken nbit le_rfl), again, State.goto, Function.update_eq_self]

theorem claim_terminates
    (here : s.pc t = .claim cell nbit irq) (small : nbit < 32)
    (free : ∃ n ≤ nbit, (s.irqs cell).getLsbD n = false) : Terminates base s t := by
  by_cases taken : (s.irqs cell).getLsbD nbit = true
  · refine Terminates.of_run ?_
    rw [run_claim_taken here small taken]
    rcases scan_cases base cell irq (s.irqs cell &&& ~~~ twoPow 32 nbit) with
      ⟨next, lowest, -, claims⟩ | ⟨-, moves⟩
    · obtain ⟨-, clear, below⟩ := lowestClear_eq_some.mp lowest
      have other : nbit ≠ next := by
        rintro rfl
        obtain ⟨n, above, open_⟩ := free
        rcases above.eq_or_lt with rfl | above
        · exact Bool.false_ne_true (open_.symm.trans taken)
        · have set := below n above
          rw [getLsbD_unset _ small, open_] at set
          exact Bool.false_ne_true set
      rw [getLsbD_unset _ small, decide_eq_true other, Bool.and_true] at clear
      rw [claims]
      exact ⟨1, by rw [claim_free (goto_pc ..) clear]; rfl⟩
    · by_cases more : cell.val + 1 < 4
      · exact load_terminates (by rw [goto_pc, moves, nextCell, dif_pos more])
      · refine ⟨0, ?_⟩
        change (((s.goto t _).pc t).inCall) = false
        rw [goto_pc, moves, nextCell, dif_neg more]
        rfl
  · exact ⟨1, by rw [claim_free here (Bool.eq_false_iff.mpr taken)]; rfl⟩

theorem terminates_iff (sound : (s.pc t).Sound base) :
    Terminates base s t ↔ ¬ Stuck s t := by
  constructor
  · rintro ⟨n, ends⟩ stuck
    rw [alone, iterate_fixed (stuck.run sound)] at ends
    obtain ⟨cell, nbit, irq, here, -⟩ := stuck
    rw [here] at ends
    exact Bool.false_ne_true ends.symm
  · intro free
    cases here : s.pc t with
    | out | done => exact ⟨0, by rw [alone, Function.iterate_zero_apply, here]; rfl⟩
    | load cell irq => exact load_terminates here
    | claim cell nbit irq =>
      rw [here] at sound
      refine claim_terminates here sound.1 ?_
      by_contra none
      push Not at none
      exact free ⟨cell, nbit, irq, here, fun n below => by simpa using none n below⟩

variable (base) (ι)

def initial : State ι := ⟨fun _ => 0, fun _ => .out, []⟩

/-- In every run nothing is handed out twice; a call made alone is right exactly if what it should
return is in reach; and a thread left alone leaves its call exactly if it is not stuck. -/
theorem irq_alloc_run (events : List (ι × Event)) :
    ∀ s ∈ visited (step base) (initial ι) events,
      NoDouble s.log ∧
      (∀ t irq, (∃ result, Returns base s t irq result ∧ Correct base s.irqs irq result) ↔
        InReach base s.irqs irq) ∧
      ∀ t, Terminates base s t ↔ ¬ Stuck s t := by
  intro s member
  have start : Inv base (initial ι) := ⟨fun _ => trivial, fun _ out => out.elim, trivial⟩
  have inv := invariant (fun s event inv _ => step_inv s event inv) start
    (AllSteps.always (fun _ _ => trivial) _ events) s member
  exact ⟨inv.single, returns_correct_iff s, fun t => terminates_iff (inv.sound t)⟩

end

local instance twoNeZero : NeZero 2 := ⟨by decide⟩

/-- Both threads load a free cell; the first takes its lowest bit before the second does. -/
def race : List (Fin 2 × Event) := [(0, .alloc 0), (1, .alloc 0), (0, .run), (1, .run), (0, .run)]

theorem irq_alloc_run_race :
    (final (step 0) (initial (Fin 2)) race).pc 0 = .done 0 ∧
      NoDouble (final (step 0) (initial (Fin 2)) race).log :=
  ⟨by decide +kernel, (irq_alloc_run (Fin 2) 0 race _ (final_mem_visited _ _)).1⟩

/-- With all lines free, line 5 is not found and 32 returned; and the loser of a race never leaves its loop. -/
theorem irq_alloc_skips_and_spins :
    (Returns 0 (initial (Fin 2)) 0 5 32 ∧ Eligible 0 (initial (Fin 2)).irqs 5 0 5) ∧
      ∀ n, (alone 0 1 n (final (step 0) (initial (Fin 2)) race)).pc 1 = .claim 0 0 0 := by
  have lost : (final (step 0) (initial (Fin 2)) race).pc 1 = .claim 0 0 0 := by decide +kernel
  have stuck : Stuck (final (step 0) (initial (Fin 2)) race) 1 :=
    ⟨0, 0, 0, lost, by decide +kernel⟩
  refine ⟨⟨⟨3, by decide +kernel⟩, by decide, by decide, by decide⟩, fun n => ?_⟩
  rw [alone, iterate_fixed (stuck.run (by rw [lost]; exact ⟨by decide, by decide⟩)), lost]

end Rvvm.Irq
