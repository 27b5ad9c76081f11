import Rvvm.Devices.AplicForward

/-! The supervisor domain has no hold on what the machine domain keeps: its writes change no source that is
not delegated, and its reads tell nothing about one. -/
namespace Rvvm.Aplic
open BitVec BitWords Emitting Runs

/-! Writes. -/

/-- The input comes from the supervisor domain, if from a domain at all. -/
def SourceInput.Supervised : SourceInput → Prop
  | .line _ => False
  | .assert smode | .clear smode | .enable smode | .disable smode | .configure smode _ | .retarget smode _ =>
    smode = true
  | .none => True

theorem sourceInput_supervised (data val : BitVec 32) (i : Nat) (reg : AplicReg) :
    (reg.sourceInput true data val i).Supervised := by
  cases reg <;> dsimp only [AplicReg.sourceInput] <;> first | trivial | (split <;> trivial)

theorem step_of_kept {s : AplicSource} (kept : s.deleg = false) (ie : Bool → Bool) {input : SourceInput}
    (supervised : input.Supervised) : (s.step ie input).1 = s := by
  have other : s.deleg ≠ true := Bool.eq_false_iff.mp kept
  cases input with
  | line lvl => exact supervised.elim
  | none => rfl
  | assert smode | enable smode =>
    obtain rfl : smode = true := supervised
    rw [AplicSource.step, if_neg fun both => other both.1]
  | clear smode | disable smode | retarget smode val =>
    obtain rfl : smode = true := supervised
    rw [AplicSource.step, if_neg other]
  | configure smode val =>
    obtain rfl : smode = true := supervised
    simp [AplicSource.step, if_neg other]

theorem supervisor_write_keeps (aplic : AplicDev) (off : Nat) (data : BitVec 32) {i : Nat}
    (source : isSource i = true) (kept : (aplic.sourceAt i).deleg = false) :
    ((aplicMmioWrite true off data).state aplic).sourceAt i = aplic.sourceAt i := by
  by_cases domain : aplicReg off = .domaincfg
  · rw [aplicMmioWrite_domaincfg true data domain]
    rfl
  · obtain ⟨_, done, -⟩ := write_stepsSource aplic true data domain source
    exact done.source.trans (step_of_kept kept aplic.ie (sourceInput_supervised data _ i (aplicReg off)))

/-- The same supervisor domain, with the same sources delegated to it. -/
structure SameDelegated (aplic other : AplicDev) : Prop where
  config : aplic.config true = other.config true
  deleg : ∀ i, i / 32 < aplicSrcRegs → (aplic.sourceAt i).deleg = (other.sourceAt i).deleg
  source : ∀ i, i / 32 < aplicSrcRegs → (aplic.sourceAt i).deleg = true → aplic.sourceAt i = other.sourceAt i

section Reads

variable {aplic other : AplicDev} (same : SameDelegated aplic other)
include same

theorem SameDelegated.masked {reg : Nat} (inside : reg < aplicSrcRegs) (word : AplicDev → BitVec 32)
    (bit : AplicSource → Bool)
    (reads : ∀ a i, i / 32 = reg → (word a).getLsbD (i % 32) = bit (AplicDev.sourceAt a i)) :
    word aplic &&& (aplicValidBits true reg).value aplic = word other &&&
      (aplicValidBits true reg).value other := by
  apply eq_of_getLsbD_eq
  intro b below
  obtain ⟨i, here, rfl⟩ : ∃ i, i / 32 = reg ∧ i % 32 = b := ⟨reg * 32 + b, by omega, by omega⟩
  have within : i / 32 < aplicSrcRegs := here.symm ▸ inside
  rw [getLsbD_and, getLsbD_and, reads _ _ here, reads _ _ here, aplicValidBits_bit _ _ _ here,
    aplicValidBits_bit _ _ _ here, ← same.deleg i within]
  by_cases set : (aplic.sourceAt i).deleg = true
  · rw [same.source i within set]
  · rw [decide_eq_false set, Bool.and_false, Bool.and_false]

theorem SameDelegated.readBits {a : AplicArray} (bitset : a = .pending ∨ a = .enabled) (reg : Nat) :
    (aplicReadBits true a reg).value aplic = (aplicReadBits true a reg).value other := by
  by_cases inside : reg < aplicSrcRegs
  · rw [aplicReadBits, if_pos inside]
    rcases bitset with rfl | rfl
    · refine same.masked inside (·.words .pending reg) AplicSource.pending fun dev i here => ?_
      rw [← here]
      rfl
    · refine same.masked inside (·.words .enabled reg) AplicSource.enabled fun dev i here => ?_
      rw [← here]
      rfl
  · rw [aplicReadBits, if_neg inside]
    rfl

theorem SameDelegated.readIn (reg : Nat) :
    (aplicReadIn true reg).value aplic = (aplicReadIn true reg).value other := by
  by_cases inside : reg < aplicSrcRegs
  · rw [aplicReadIn, if_pos inside]
    refine same.masked inside (fun dev => dev.words .raised reg ^^^ dev.words .invert reg) AplicSource.rectified
      fun dev i here => ?_
    rw [← here, getLsbD_xor]
    rfl
  · rw [aplicReadIn, if_neg inside]
    rfl

theorem SameDelegated.readOwn (irq : Nat) (field : AplicSource → BitVec 32) {load rest : AplicM (BitVec 32)}
    (reads : ∀ dev, load.value dev = field (dev.sourceAt irq)) (others : rest.value aplic = rest.value other) :
    let read : AplicM (BitVec 32) := if isSource irq then do
        let valid ← aplicValidSrc true irq
        if valid then load else rest
      else return 0
    read.value aplic = read.value other := by
  dsimp only
  by_cases source : isSource irq = true
  · have within := isSource_word source
    rw [if_pos source, value_bind, value_bind, aplicValidSrc_value, aplicValidSrc_value, ← same.deleg irq within,
      (aplicValidSrc_silent _ _).state, (aplicValidSrc_silent _ _).state]
    by_cases set : (aplic.sourceAt irq).deleg = true
    · rw [if_pos (decide_eq_true set), reads, reads, same.source irq within set]
    · rw [if_neg fun held => set (of_decide_eq_true held)]
      exact others
  · rw [if_neg source]
    rfl

theorem SameDelegated.read (off : Nat) :
    (aplicMmioRead true off).value aplic = (aplicMmioRead true off).value other := by
  have reg (config : BitVec 32) (reg : AplicReg) :
      (aplicReadReg true config reg).value aplic = (aplicReadReg true config reg).value other := by
    cases reg with
    | setip reg => exact same.readBits (.inl rfl) reg
    | setie reg => exact same.readBits (.inr rfl) reg
    | inClrip reg => exact same.readIn reg
    | sourcecfg irq => exact same.readOwn irq AplicSource.source (fun _ => rfl) rfl
    | target irq => exact same.readOwn irq AplicSource.target (fun _ => rfl) rfl
    | _ => rfl
  show domainOrder (aplic.config true) ((aplicReadReg true (aplic.config true) (aplicReg off)).value aplic) =
    domainOrder (other.config true) ((aplicReadReg true (other.config true) (aplicReg off)).value other)
  rw [same.config, reg]

end Reads

/-- For every state and every register of the supervisor domain. -/
theorem supervisor_domain_isolated (aplic : AplicDev) (off : Nat) :
    (∀ data i, isSource i = true → (aplic.sourceAt i).deleg = false →
      ((aplicMmioWrite true off data).state aplic).sourceAt i = aplic.sourceAt i) ∧
    ∀ other, SameDelegated aplic other →
      (aplicMmioRead true off).value aplic = (aplicMmioRead true off).value other :=
  ⟨fun data _ source kept => supervisor_write_keeps aplic off data source kept, fun _ same => same.read off⟩

/-- The machine domain keeps source 1; it is pending in one state and not in the other. -/
theorem supervisor_domain_isolated_source_one :
    let aplic := aplicStep (aplicInit 1) (.write false 0x4 0x4)
    let other := aplic.store .pending 0 0x2
    (aplic.sourceAt 1).deleg = false ∧ (aplic.sourceAt 1).pending ≠ (other.sourceAt 1).pending ∧
      ((aplicMmioWrite true 0x1C00 0xFFFFFFFF).state aplic).sourceAt 1 = aplic.sourceAt 1 ∧
      (aplicMmioRead true 0x1C00).value aplic = (aplicMmioRead true 0x1C00).value other := by
  intro aplic other
  have kept : (aplic.sourceAt 1).deleg = false := by decide +kernel
  have agree : ∀ i < 64, (aplic.sourceAt i).deleg = true → aplic.sourceAt i = other.sourceAt i := by decide +kernel
  have same : SameDelegated aplic other := by
    refine ⟨rfl, fun i _ => rfl, fun i inside => agree i ?_⟩
    rw [aplicSrcRegs] at inside
    omega
  obtain ⟨writes, reads⟩ := supervisor_domain_isolated aplic 0x1C00
  exact ⟨kept, by decide +kernel, writes 0xFFFFFFFF 1 rfl kept, reads other same⟩

end Rvvm.Aplic
