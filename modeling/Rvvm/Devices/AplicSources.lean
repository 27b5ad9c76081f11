import Rvvm.Devices.Aplic

/-! The controller seen from one source. Whatever a register write or a change of an input line does, it
does to every source on its own, given which domains are enabled. -/
namespace Rvvm.Aplic
open BitWords Emitting List
open BitVec hiding and_assoc

structure AplicSource where
  deleg : Bool
  raised : Bool
  invert : Bool
  pending : Bool
  enabled : Bool
  source : BitVec 32
  target : BitVec 32
  deriving DecidableEq

def AplicDev.sourceAt (aplic : AplicDev) (i : Nat) : AplicSource where
  deleg := test (aplic.words .deleg) i
  raised := test (aplic.words .raised) i
  invert := test (aplic.words .invert) i
  pending := test (aplic.words .pending) i
  enabled := test (aplic.words .enabled) i
  source := aplic.words .source i
  target := aplic.words .target i

def AplicDev.ie (aplic : AplicDev) (smode : Bool) : Bool := aplic.config smode &&& aplicDomaincfgIe != 0

/-! What happens to a source. -/

inductive SourceInput where
  | line (lvl : Bool)
  | assert (smode : Bool)
  | clear (smode : Bool)
  | enable (smode : Bool)
  | disable (smode : Bool)
  | configure (smode : Bool) (val : BitVec 32)
  | retarget (smode : Bool) (val : BitVec 32)
  | none

namespace AplicSource

def rectified (s : AplicSource) : Bool := s.raised ^^ s.invert

def detached (s : AplicSource) : Bool := s.source ≤ aplicSourcecfgDetached

variable (ie : Bool → Bool)

/-- Enabled in an enabled domain. -/
def forwards (s : AplicSource) : Bool := s.enabled && ie s.deleg

def pend (s : AplicSource) : AplicSource × Bool :=
  if s.forwards ie then (s, true) else ({ s with pending := true }, false)

def renotify (s : AplicSource) : AplicSource × Bool := if s.pending then s.pend ie else (s, false)

def step (s : AplicSource) : SourceInput → AplicSource × Bool
  | .line lvl =>
    if s.raised = lvl then (s, false)
    else
      let s := { s with raised := lvl }
      if s.rectified && !s.detached then s.pend ie else (s, false)
  | .assert smode =>
    if s.deleg = smode ∧ (s.rectified || s.detached) = true then s.pend ie else (s, false)
  | .clear smode => (if s.deleg = smode then { s with pending := false } else s, false)
  | .enable smode =>
    if s.deleg = smode ∧ s.enabled = false then
      let s := { s with enabled := true }
      if s.pending then { s with pending := false }.pend ie else (s, false)
    else (s, false)
  | .disable smode => (if s.deleg = smode then { s with enabled := false } else s, false)
  | .configure smode val =>
    let s := if smode then s else { s with deleg := val &&& aplicSourcecfgDelegate != 0 }
    let cfg := val &&& aplicSourcecfgMask
    (if s.deleg = smode then
      { s with source := cfg, invert := decide (cfg = aplicSourcecfgLvlLow ∨ cfg = aplicSourcecfgEdgeFall) }
    else s, false)
  | .retarget smode val => (if s.deleg = smode then { s with target := val } else s, false)
  | .none => (s, false)

end AplicSource

def AplicReg.sourceInput (smode : Bool) (data val : BitVec 32) (i : Nat) : AplicReg → SourceInput
  | .setipnum => if i = val.toNat then .assert smode else .none
  | .setipnumLe => if i = data.toNat then .assert smode else .none
  | .setipnumBe => if i = (swapBytes data).toNat then .assert smode else .none
  | .clripnum => if i = val.toNat then .clear smode else .none
  | .setienum => if i = val.toNat then .enable smode else .none
  | .clrienum => if i = val.toNat then .disable smode else .none
  | .setip reg => if i / 32 = reg ∧ val.getLsbD (i % 32) = true then .assert smode else .none
  | .inClrip reg => if i / 32 = reg ∧ val.getLsbD (i % 32) = true then .clear smode else .none
  | .setie reg => if i / 32 = reg ∧ val.getLsbD (i % 32) = true then .enable smode else .none
  | .clrie reg => if i / 32 = reg ∧ val.getLsbD (i % 32) = true then .disable smode else .none
  | .sourcecfg irq => if i = irq then .configure smode val else .none
  | .target irq => if i = irq then .retarget smode val else .none
  | .domaincfg | .genmsi | .msiaddrcfgh | .unmapped => .none

def msisFor (i : Nat) (events : List AplicEvent) : List AplicEvent :=
  events.filter fun event => match event with
    | .msi (some irq) _ _ _ => irq = i
    | _ => false

theorem msisFor_append (i : Nat) (first second : List AplicEvent) :
    msisFor i (first ++ second) = msisFor i first ++ msisFor i second := filter_append ..

def AplicSource.message (s : AplicSource) (i : Nat) : AplicEvent :=
  .msi (some i) s.deleg (hartid s.target) (s.target &&& 0x3FF)

/-- What goes out for a source that is forwarded: nothing if its target names no hart. -/
def AplicSource.messages (s : AplicSource) (harts i : Nat) : List AplicEvent :=
  if hartid s.target < harts then [s.message i] else []

theorem test_update (w : Words) (k : Nat) (x : BitVec 32) (i : Nat) :
    test (Function.update w k x) i = if i / 32 = k then x.getLsbD (i % 32) else test w i := by
  rw [test, test]
  by_cases here : i / 32 = k
  · rw [if_pos here, here, Function.update_self]
  · rw [if_neg here, Function.update_of_ne here]

/-- The source once word `k` of an array holds `x`. -/
def AplicSource.put (s : AplicSource) (i k : Nat) (x : BitVec 32) : AplicArray → AplicSource
  | .deleg => { s with deleg := if i / 32 = k then x.getLsbD (i % 32) else s.deleg }
  | .raised => { s with raised := if i / 32 = k then x.getLsbD (i % 32) else s.raised }
  | .invert => { s with invert := if i / 32 = k then x.getLsbD (i % 32) else s.invert }
  | .pending => { s with pending := if i / 32 = k then x.getLsbD (i % 32) else s.pending }
  | .enabled => { s with enabled := if i / 32 = k then x.getLsbD (i % 32) else s.enabled }
  | .source => { s with source := if i = k then x else s.source }
  | .target => { s with target := if i = k then x else s.target }

section
variable (aplic : AplicDev) (a : AplicArray)
include aplic a

theorem sourceAt_store (k : Nat) (x : BitVec 32) (i : Nat) :
    (aplic.store a k x).sourceAt i = (aplic.sourceAt i).put i k x a := by
  cases a <;> simp [AplicDev.sourceAt, AplicDev.store, AplicSource.put, test_update, Function.update_apply]

theorem put_self (k i : Nat) :
    (aplic.sourceAt i).put i k (aplic.words a k) a = aplic.sourceAt i := by
  cases a <;> simp +contextual [AplicSource.put, AplicDev.sourceAt, test]

end

section Accesses

variable (aplic : AplicDev) (a : AplicArray) (k : Nat)

section
variable (f : BitVec 32 → BitVec 32)
include f

@[simp] theorem value_rmw : (rmw a k f).value aplic = aplic.words a k := rfl

@[simp] theorem state_rmw :
    (rmw a k f).state aplic = aplic.store a k (f (aplic.words a k)) := rfl

end

@[simp] theorem events_discard {α : Type} (p : AplicM α) : (discard p).events aplic = p.events aplic :=
  append_nil _

end Accesses

structure Silent {α : Type} (p : AplicM α) : Prop where
  state : ∀ aplic, p.state aplic = aplic
  sent : ∀ aplic i, msisFor i (p.events aplic) = []

namespace Silent

variable {α β : Type} {p q : AplicM α} {f : α → AplicM β}

theorem pure (a : α) : Silent (Pure.pure a : AplicM α) := ⟨fun _ => rfl, fun _ _ => rfl⟩

theorem bind (first : Silent p) (second : ∀ a, Silent (f a)) : Silent (p >>= f) := by
  constructor
  · intro aplic
    rw [state_bind, first.state, (second _).state]
  · intro aplic i
    rw [events_bind, msisFor_append, first.sent, (second _).sent, append_nil]

theorem ite {c : Prop} [Decidable c] (yes : Silent p) (no : Silent q) : Silent (if c then p else q) := by
  by_cases h : c
  · rw [if_pos h]
    exact yes
  · rw [if_neg h]
    exact no

theorem state_bind (silent : Silent p) (aplic : AplicDev) :
    (p >>= f).state aplic = (f (p.value aplic)).state aplic := by
  rw [Emitting.state_bind, silent.state]

theorem sent_bind (silent : Silent p) (aplic : AplicDev) (i : Nat) :
    msisFor i ((p >>= f).events aplic) = msisFor i ((f (p.value aplic)).events aplic) := by
  rw [events_bind, msisFor_append, silent.sent, silent.state, nil_append]

end Silent

theorem load_silent (a : AplicArray) (k : Nat) : Silent (load a k) := ⟨fun _ => rfl, fun _ _ => rfl⟩

theorem loadConfig_silent (smode : Bool) : Silent (loadConfig smode) := ⟨fun _ => rfl, fun _ _ => rfl⟩

section Looks

variable (smode : Bool) (irq reg : Nat) (aplic : AplicDev)

theorem aplicRectifiedBits_silent : Silent (aplicRectifiedBits reg) :=
  .bind (load_silent _ _) fun _ => .bind (load_silent _ _) fun _ => .pure _

theorem aplicRectifiedSrc_silent : Silent (aplicRectifiedSrc irq) :=
  .bind (aplicRectifiedBits_silent _) fun _ => .pure _

theorem aplicRectifiedSrc_value : (aplicRectifiedSrc irq).value aplic = (aplic.sourceAt irq).rectified := by
  show ((aplic.words .raised (irq / 32) ^^^ aplic.words .invert (irq / 32)) &&& mask irq != 0) = _
  rw [getLsbD_and_mask, getLsbD_xor]
  rfl

theorem aplicDetachedSrc_silent : Silent (aplicDetachedSrc irq) :=
  .bind (load_silent _ _) fun _ => .pure _

theorem aplicDetachedSrc_value : (aplicDetachedSrc irq).value aplic = (aplic.sourceAt irq).detached := rfl

theorem aplicValidBits_silent : Silent (aplicValidBits smode reg) :=
  .bind (load_silent _ _) fun _ => .pure _

theorem aplicValidBits_bit {i : Nat} (here : i / 32 = reg) :
    ((aplicValidBits smode reg).value aplic).getLsbD (i % 32) = decide ((aplic.sourceAt i).deleg = smode) := by
  have below : i % 32 < 32 := Nat.mod_lt i (by decide)
  show (aplic.words .deleg reg ^^^ domainInvert smode).getLsbD (i % 32) = _
  subst here
  rw [getLsbD_xor]
  cases smode
  · rw [domainInvert, if_neg nofun, getLsbD_allOnes, decide_eq_true below, Bool.xor_true]
    show (!(aplic.sourceAt i).deleg) = _
    cases (aplic.sourceAt i).deleg <;> rfl
  · rw [domainInvert, if_pos rfl, ofNat_eq_ofNat, getLsbD_zero, Bool.xor_false]
    show (aplic.sourceAt i).deleg = _
    cases (aplic.sourceAt i).deleg <;> rfl

theorem aplicValidSrc_silent : Silent (aplicValidSrc smode irq) :=
  .bind (aplicValidBits_silent _ _) fun _ => .pure _

theorem aplicValidSrc_value :
    (aplicValidSrc smode irq).value aplic = decide ((aplic.sourceAt irq).deleg = smode) := by
  rw [← aplicValidBits_bit smode _ aplic rfl, ← getLsbD_and_mask]
  rfl

theorem aplicUngatedSrc_silent : Silent (aplicUngatedSrc smode irq) := by
  refine .bind (aplicValidSrc_silent _ _) fun _ => .ite ?_ (.pure _)
  exact .bind (aplicRectifiedSrc_silent _) fun _ => .ite (.pure _) (aplicDetachedSrc_silent _)

theorem aplicUngatedSrc_value :
    (aplicUngatedSrc smode irq).value aplic = decide ((aplic.sourceAt irq).deleg = smode ∧
      ((aplic.sourceAt irq).rectified || (aplic.sourceAt irq).detached) = true) := by
  rw [aplicUngatedSrc, value_bind, (aplicValidSrc_silent smode irq).state, aplicValidSrc_value, value_ite,
    value_bind, (aplicRectifiedSrc_silent irq).state, aplicRectifiedSrc_value, value_ite, aplicDetachedSrc_value]
  by_cases own : (aplic.sourceAt irq).deleg = smode
  · cases rect : (aplic.sourceAt irq).rectified <;> simp [own]
  · simp [own]

end Looks

/-! What programs do to a source. -/

/-- The domains are left as they are, the source becomes the given one, and its message goes out once if
it is to. -/
structure Does {α : Type} (p : AplicM α) (aplic : AplicDev) (i : Nat) (next : AplicSource × Bool) : Prop where
  config : (p.state aplic).config = aplic.config
  harts : (p.state aplic).harts = aplic.harts
  source : (p.state aplic).sourceAt i = next.1
  sent : msisFor i (p.events aplic) = if next.2 then (aplic.sourceAt i).messages aplic.harts i else []

section Doing

variable {α β : Type} {p q : AplicM α} {f : α → AplicM β} {aplic : AplicDev} {i : Nat}
  {middle : AplicSource} {next : AplicSource × Bool}

theorem Does.skip {a : α} (same : next = (aplic.sourceAt i, false)) : Does (pure a) aplic i next := by
  rw [same]
  exact ⟨rfl, rfl, rfl, rfl⟩

theorem Does.ite {c : Prop} [Decidable c] (yes : c → Does p aplic i next) (no : ¬ c → Does q aplic i next) :
    Does (if c then p else q) aplic i next := by
  by_cases h : c
  · rw [if_pos h]
    exact yes h
  · rw [if_neg h]
    exact no h

theorem Does.ie (does : Does p aplic i next) : (p.state aplic).ie = aplic.ie := by
  funext smode
  rw [AplicDev.ie, does.config, AplicDev.ie]

theorem Does.bind (first : Does p aplic i (middle, false)) (rest : Does (f (p.value aplic)) (p.state aplic) i next)
    (messages : middle.messages aplic.harts i = (aplic.sourceAt i).messages aplic.harts i ∨ next.2 = false) :
    Does (p >>= f) aplic i next := by
  refine ⟨rest.config.trans first.config, rest.harts.trans first.harts, rest.source, ?_⟩
  rw [events_bind, msisFor_append, first.sent, rest.sent, first.source, first.harts]
  rcases messages with messages | quiet
  · rw [messages]
    rfl
  · rw [quiet]
    rfl

theorem Silent.does (silent : Silent p) (rest : Does (f (p.value aplic)) aplic i next) :
    Does (p >>= f) aplic i next := by
  constructor
  · rw [silent.state_bind, rest.config]
  · rw [silent.state_bind, rest.harts]
  · rw [silent.state_bind, rest.source]
  · rw [silent.sent_bind, rest.sent]

theorem rmw_does (aplic : AplicDev) (i : Nat) (a : AplicArray) (k : Nat) (g : BitVec 32 → BitVec 32) :
    Does (rmw a k g) aplic i ((aplic.sourceAt i).put i k (g (aplic.words a k)) a, false) :=
  ⟨rfl, rfl, sourceAt_store .., rfl⟩

theorem store_does (aplic : AplicDev) (i : Nat) (a : AplicArray) (k : Nat) (x : BitVec 32) :
    Does (store a k x) aplic i ((aplic.sourceAt i).put i k x a, false) := ⟨rfl, rfl, sourceAt_store .., rfl⟩

theorem Does.discard (does : Does p aplic i next) : Does (discard p) aplic i next := by
  refine ⟨does.config, does.harts, does.source, ?_⟩
  rw [events_discard, does.sent]

/-- A loop over distinct identities reaches each source at most once. -/
theorem forM_does (act : (Bool → Bool) → AplicSource → AplicSource × Bool) {body : Nat → AplicM Unit}
    (once : ∀ irq aplic, Does (body irq) aplic i
      (if i = irq then act aplic.ie (aplic.sourceAt i) else (aplic.sourceAt i, false)))
    (irqs : List Nat) (distinct : irqs.Nodup) (aplic : AplicDev) :
    Does (irqs.forM body) aplic i
      (if i ∈ irqs then act aplic.ie (aplic.sourceAt i) else (aplic.sourceAt i, false)) := by
  induction irqs generalizing aplic with
  | nil =>
    exact .skip (if_neg not_mem_nil)
  | cons irq irqs ih =>
    obtain ⟨apart, distinct⟩ := nodup_cons.mp distinct
    have head := once irq aplic
    have tail := ih distinct ((body irq).state aplic)
    rw [head.ie, head.source] at tail
    have config := tail.config.trans head.config
    have harts := tail.harts.trans head.harts
    have source := tail.source
    have sent := tail.sent
    by_cases here : i = irq
    · subst here
      rw [if_neg apart] at source sent
      rw [if_pos mem_cons_self]
      rw [if_pos rfl] at head source
      refine ⟨config, harts, source, ?_⟩
      show msisFor i ((body i).events aplic ++ _) = _
      rw [msisFor_append, head.sent, sent]
      exact append_nil _
    · have same : i ∈ irq :: irqs ↔ i ∈ irqs := by rw [mem_cons, or_iff_right here]
      rw [if_neg here] at head source sent
      rw [head.source, head.harts] at sent
      simp only [same]
      refine ⟨config, harts, source, ?_⟩
      show msisFor i ((body irq).events aplic ++ _) = _
      rw [msisFor_append, head.sent, sent]
      rfl

theorem forM_word (body : Nat → AplicM Unit) (reg : Nat) (bits : List Nat) :
    (bits.forM fun bit => body (reg * 32 + bit)) = (bits.map (reg * 32 + ·)).forM body := by
  induction bits with
  | nil => rfl
  | cons bit bits ih =>
    show (body (reg * 32 + bit) >>= fun _ => bits.forM fun bit => body (reg * 32 + bit)) = _
    rw [ih]
    rfl

end Doing

section Bits

variable (aplic : AplicDev) (a : AplicArray) (i irq reg : Nat) (x : BitVec 32)

theorem put_mask : (if i / 32 = irq / 32 then (aplic.words a (irq / 32) ||| mask irq).getLsbD (i % 32)
    else test (aplic.words a) i) = if i = irq then true else test (aplic.words a) i := by
  rw [← test_update]
  refine (test_set (aplic.words a) irq i).trans ?_
  by_cases here : i = irq
  · rw [decide_eq_true here, if_pos here, Bool.true_or]
  · rw [decide_eq_false here, if_neg here, Bool.false_or]

theorem put_not_mask : (if i / 32 = irq / 32 then (aplic.words a (irq / 32) &&& ~~~ mask irq).getLsbD (i % 32)
    else test (aplic.words a) i) = if i = irq then false else test (aplic.words a) i := by
  rw [← test_update]
  refine (test_clear (aplic.words a) irq i).trans ?_
  by_cases here : i = irq
  · rw [decide_eq_false (not_not.mpr here), if_pos here, Bool.false_and]
  · rw [decide_eq_true here, if_neg here, Bool.true_and]

theorem word_bits_nodup : ((bits x).map (reg * 32 + ·)).Nodup :=
  (bits_nodup x).map fun _ _ same => Nat.add_left_cancel same

theorem and_valid_bit (smode : Bool) (reg : Nat) (val : BitVec 32) :
    (i / 32 = reg ∧ (val &&& (aplicValidBits smode reg).value aplic).getLsbD (i % 32) = true) ↔
      (i / 32 = reg ∧ val.getLsbD (i % 32) = true) ∧ (aplic.sourceAt i).deleg = smode := by
  rw [and_assoc]
  refine and_congr_right fun here => ?_
  rw [BitVec.getLsbD_and, Bool.and_eq_true, aplicValidBits_bit smode reg aplic here, decide_eq_true_eq]

theorem put_or : (aplic.sourceAt i).put i reg (aplic.words .enabled reg ||| x) .enabled =
    if i / 32 = reg ∧ (x &&& ~~~ aplic.words .enabled reg).getLsbD (i % 32) = true then
      { aplic.sourceAt i with enabled := true } else aplic.sourceAt i := by
  rw [AplicSource.put]
  by_cases here : i / 32 = reg
  · subst here
    rw [if_pos rfl, getLsbD_or, getLsbD_and, getLsbD_not, decide_eq_true
      (Nat.mod_lt i (by decide))]
    have bit : (aplic.words .enabled (i / 32)).getLsbD (i % 32) = (aplic.sourceAt i).enabled := rfl
    rw [bit]
    cases enabled : (aplic.sourceAt i).enabled <;> cases x.getLsbD (i % 32) <;> simp [enabled.symm]
  · rw [if_neg here, if_neg fun both => here both.1]

theorem put_and_not (bitset : a = .pending ∨ a = .enabled) :
    (aplic.sourceAt i).put i reg (aplic.words a reg &&& ~~~ x) a =
      if i / 32 = reg ∧ x.getLsbD (i % 32) = true then (aplic.sourceAt i).put i (i / 32) 0 a
      else aplic.sourceAt i := by
  have bit : (if i / 32 = reg then (aplic.words a reg &&& ~~~ x).getLsbD (i % 32) else test (aplic.words a) i) =
      if i / 32 = reg ∧ x.getLsbD (i % 32) = true then false else test (aplic.words a) i := by
    by_cases here : i / 32 = reg
    · subst here
      rw [if_pos rfl, getLsbD_and, getLsbD_not, decide_eq_true (Nat.mod_lt i (by decide))]
      cases x.getLsbD (i % 32) <;> simp [test]
    · rw [if_neg here, if_neg fun both => here both.1]
  rcases bitset with rfl | rfl
  · rw [AplicSource.put, AplicSource.put]
    refine (congrArg (fun b => { aplic.sourceAt i with pending := b }) bit).trans ?_
    split <;> simp [AplicDev.sourceAt]
  · rw [AplicSource.put, AplicSource.put]
    refine (congrArg (fun b => { aplic.sourceAt i with enabled := b }) bit).trans ?_
    split <;> simp [AplicDev.sourceAt]

end Bits

end Rvvm.Aplic
