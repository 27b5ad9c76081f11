import Rvvm.Cpu.Legal
import Rvvm.Cpu.Trap

/-! What a control-register access may touch: nothing if it fails, and otherwise only the control
state of the privileges it is open to. -/
namespace Rvvm
open BitVec Function

variable {δ : Type}

/-! Control state. -/

/-- `vm'` differs from `vm` in control state only, and not in the number of the hart. -/
def OnlyControl (vm vm' : Hart δ) : Prop :=
  vm' = { vm with
    running := vm'.running
    tlb := vm'.tlb
    jtlb := vm'.jtlb
    rootPageTable := vm'.rootPageTable
    mmuMode := vm'.mmuMode
    rv64 := vm'.rv64
    aia := vm'.aia
    stimecmp := vm'.stimecmp
    pendingIrqs := vm'.pendingIrqs
    csr := { vm'.csr with hartid := vm.csr.hartid }
    fpuExceptions := vm'.fpuExceptions
    fpuRounding := vm'.fpuRounding }

theorem OnlyControl.trans {a b c : Hart δ} (first : OnlyControl a b) (second : OnlyControl b c) :
    OnlyControl a c := by
  unfold OnlyControl at first second ⊢
  rw [second, first]

def above (level : Nat) (registers : Priv → BitVec 64) (priv : Priv) : BitVec 64 :=
  if level < priv.code then registers priv else 0

/-- The part of a register that privileges up to `level` may not write: all of it for user mode,
and the bits `supervisor` for supervisor mode. -/
def hidden {w : Nat} (level : Nat) (supervisor value : BitVec w) : BitVec w :=
  match level with
  | 0 => value
  | 1 | 2 => value &&& supervisor
  | _ => 0

/-- What software of privilege number `level` must not change. A write to `sstatus` also
legalises the fields MPP and SXL, which are therefore not listed. -/
structure Shielded where
  tvec : Priv → BitVec 64
  scratch : Priv → BitVec 64
  epc : Priv → BitVec 64
  cause : Priv → BitVec 64
  tval : Priv → BitVec 64
  counteren : Priv → BitVec 64
  iselect : Priv → BitVec 64
  envcfg : Priv → BitVec 64
  edeleg : Priv → BitVec 64
  ideleg : Priv → BitVec 64
  status : BitVec 64
  ie : BitVec 64
  ip : BitVec 64
  pendingIrqs : BitVec 32
  machine : Option (BitVec 64 × BitVec 64 × BitVec 32 × Option AiaRegfile)
  supervisor : Option (SatpMode × Addr × BitVec 64 × Option AiaRegfile)

def statusShield : BitVec 64 := ~~~ (csrSstatusMask ||| 0xC00001800#64)

def shielded (level : Nat) (vm : Hart δ) : Shielded where
  tvec := above level vm.csr.tvec
  scratch := above level vm.csr.scratch
  epc := above level vm.csr.epc
  cause := above level vm.csr.cause
  tval := above level vm.csr.tval
  counteren := above level vm.csr.counteren
  iselect := above level vm.csr.iselect
  envcfg := above level vm.csr.envcfg
  edeleg := above level vm.csr.edeleg
  ideleg := above level vm.csr.ideleg
  status := hidden level statusShield vm.csr.status
  ie := hidden level (~~~ csrSeipMask) vm.csr.ie
  ip := hidden level (~~~ csrSeipMask) vm.csr.ip
  -- the supervisor timer and external interrupts
  pendingIrqs := hidden level (~~~ 0x220#32) vm.pendingIrqs
  machine := if level < 3 then
    some (vm.csr.isa, vm.csr.mseccfg, vm.csr.hartid, vm.aia.map fun files => files false) else none
  supervisor := if level < 1 then
    some (vm.mmuMode, vm.rootPageTable, vm.stimecmp, vm.aia.map fun files => files true) else none

theorem above_update {level : Nat} {priv : Priv} (own : priv.code ≤ level) (registers : Priv → BitVec 64)
    (value : BitVec 64) : above level (update registers priv value) = above level registers := by
  funext p
  unfold above
  by_cases higher : level < p.code
  · have other : p ≠ priv := by
      rintro rfl
      omega
    rw [if_pos higher, if_pos higher, update_of_ne other]
  · rw [if_neg higher, if_neg higher]

theorem shielded_machine (vm vm' : Hart δ) : shielded 3 vm' = shielded 3 vm := by
  have blank (registers : Priv → BitVec 64) : above 3 registers = fun _ => 0 := by
    funext p
    cases p <;> rfl
  simp only [shielded, blank]
  rfl

/-- What an access to a register of privilege number `level` does. -/
structure CsrEffect (level : Nat) (vm vm' : Hart δ) : Prop where
  control : OnlyControl vm vm'
  shield : shielded level vm' = shielded level vm
  warl : WarlKept vm.machineRv64 vm.csr vm'.csr

namespace CsrEffect

variable {level : Nat}

theorem refl (vm : Hart δ) : CsrEffect level vm vm := ⟨rfl, rfl, .refl _⟩

theorem trans {a b c : Hart δ} (first : CsrEffect level a b) (second : CsrEffect level b c) :
    CsrEffect level a c := by
  have same : b.machineRv64 = a.machineRv64 := by rw [first.control]
  exact ⟨first.control.trans second.control, second.shield.trans first.shield,
    first.warl.trans (same ▸ second.warl)⟩

theorem ite {vm a b : Hart δ} {p : Prop} [Decidable p] (yes : CsrEffect level vm a)
    (no : CsrEffect level vm b) : CsrEffect level vm (if p then a else b) := by
  by_cases h : p
  · rw [if_pos h]
    exact yes
  · rw [if_neg h]
    exact no

theorem of_machine {vm vm' : Hart δ} (control : OnlyControl vm vm')
    (warl : WarlKept vm.machineRv64 vm.csr vm'.csr) : CsrEffect 3 vm vm' :=
  ⟨control, shielded_machine vm vm', warl⟩

end CsrEffect

section Primitives
variable {level : Nat} (vm : Hart δ)

theorem riscvHartCheckInterrupts_effect : CsrEffect level vm (riscvHartCheckInterrupts vm) := by
  exact .ite ⟨rfl, rfl, .refl _⟩ (.refl vm)

theorem riscvUpdateXlen_effect : CsrEffect level vm (riscvUpdateXlen vm) := by
  rcases riscvUpdateXlen_cases vm with kept | ⟨rv64, changed⟩
  · rw [kept]
    exact .refl vm
  · rw [changed]
    exact ⟨rfl, rfl, .refl _⟩

theorem riscvUpdateFcsr_effect (old new : BitVec 32) :
    CsrEffect level vm (riscvUpdateFcsr vm old new) := by
  refine .ite (.refl vm) (.ite (.refl vm) ?_)
  split <;> dsimp only <;> split <;> exact ⟨rfl, rfl, .of_same rfl rfl rfl rfl⟩

end Primitives

/-! Interrupts and the interrupt files. -/

section Interrupts
variable {level : Nat} (vm : Hart δ) {w : Nat}

theorem hidden_congr (notUser : 1 ≤ level) {supervisor a b : BitVec w}
    (kept : level < 3 → a &&& supervisor = b &&& supervisor) :
    hidden level supervisor a = hidden level supervisor b := by
  match level, notUser, kept with
  | 1, _, kept => exact kept (by decide)
  | 2, _, kept => exact kept (by decide)
  | _ + 3, _, _ => rfl

theorem getLsbD_of_disjoint {m k : BitVec w} (disjoint : m &&& k = 0) (i : Nat) :
    (m.getLsbD i && k.getLsbD i) = false := by
  rw [← getLsbD_and, disjoint]
  simp

section
variable (x : BitVec w) {m k : BitVec w} (disjoint : m &&& k = 0)
include x m k disjoint

theorem or_and_of_disjoint :
    (x ||| m) &&& k = x &&& k := by
  apply eq_of_getLsbD_eq
  intro i below
  rw [getLsbD_and, getLsbD_or, getLsbD_and, Bool.and_or_distrib_right, getLsbD_of_disjoint disjoint,
    Bool.or_false]

theorem and_not_and_of_disjoint :
    (x &&& ~~~ m) &&& k = x &&& k := by
  apply eq_of_getLsbD_eq
  intro i below
  have bit := getLsbD_of_disjoint disjoint i
  cases hm : m.getLsbD i <;> cases hk : k.getLsbD i <;> simp_all

end

variable (notUser : 1 ≤ level)
include notUser

theorem pendingIrqs_effect {pendingIrqs : BitVec 32} (running : Bool)
    (kept : level < 3 → pendingIrqs &&& ~~~ 0x220#32 = vm.pendingIrqs &&& ~~~ 0x220#32) :
    CsrEffect level vm { vm with pendingIrqs := pendingIrqs, running := running } := by
  refine ⟨rfl, ?_, .refl _⟩
  have same := hidden_congr notUser kept
  simp only [shielded]
  rw [same]

variable {irq : Nat} (own : level < 3 → irqMask irq &&& ~~~ 0x220#32 = 0)
include own

theorem riscvInterrupt_effect : CsrEffect level vm (riscvInterrupt vm irq) := by
  have kept (low : level < 3) := or_and_of_disjoint vm.pendingIrqs (own low)
  exact .ite (pendingIrqs_effect vm notUser false kept) (pendingIrqs_effect vm notUser vm.running kept)

theorem riscvInterruptClear_effect : CsrEffect level vm (riscvInterruptClear vm irq) := by
  have kept (low : level < 3) := and_not_and_of_disjoint vm.pendingIrqs (own low)
  exact pendingIrqs_effect vm notUser vm.running kept

end Interrupts

section Files
variable {level : Nat} {smode : Bool} (own : (if smode then 1 else 3) ≤ level)
include own

theorem own_external : 1 ≤ level ∧ (level < 3 → irqMask (externalIrq smode) &&& ~~~ 0x220#32 = 0) := by
  cases smode with
  | false => exact ⟨le_trans (by decide) own, fun low => absurd low (by simpa using own)⟩
  | true => exact ⟨own, fun _ => by decide⟩

theorem setAia_effect (vm : Hart δ) (file : AiaRegfile) : CsrEffect level vm (vm.setAia smode file) := by
  refine ⟨rfl, ?_, .refl _⟩
  have notUser := (own_external own).1
  have noSupervisor : ¬ level < 1 := by omega
  simp only [shielded, Hart.setAia, noSupervisor, if_false]
  cases smode with
  | false =>
    have noMachine : ¬ level < 3 := not_lt.mpr own
    simp [noMachine]
  | true => simp [comp_def]

theorem aiaScan_effect (update claim : Bool) (file : AiaRegfile) (words : List (Fin 8)) (ret : BitVec 32)
    (vm : Hart δ) : CsrEffect level vm (aiaScan smode update claim file words ret vm).2 := by
  obtain ⟨notUser, external⟩ := own_external own
  induction words generalizing file ret vm with
  | nil => exact .refl vm
  | cons i rest ih =>
    unfold aiaScan
    dsimp only
    split
    · exact ih file ret vm
    split
    · exact riscvInterrupt_effect vm notUser external
    split
    · generalize (if claim = true then file.setEip i
        (file.eip i &&& ~~~ (1#32 <<< topBit (file.word i))) else file) = next
      have claimed : CsrEffect level vm (if claim then vm.setAia smode next else vm) :=
        .ite (setAia_effect own vm next) (.refl vm)
      generalize (if claim = true then vm.setAia smode next else vm) = mid at claimed ⊢
      generalize (if claim = true then file.word i &&& ~~~ (1#32 <<< topBit (file.word i))
        else file.word i) = bits
      split
      · split
        · exact claimed.trans (riscvInterrupt_effect mid notUser external)
        · exact claimed.trans (ih next _ mid)
      · exact claimed
    · exact ih file ret vm

theorem riscvUpdateAiaInternal_effect (update claim : Bool) (vm : Hart δ) :
    CsrEffect level vm (riscvUpdateAiaInternal smode update claim vm).2 := by
  obtain ⟨notUser, external⟩ := own_external own
  unfold riscvUpdateAiaInternal
  split
  · exact .refl vm
  · have cleared : CsrEffect level vm
        (if update then riscvInterruptClear vm (externalIrq smode) else vm) :=
      .ite (riscvInterruptClear_effect vm notUser external) (.refl vm)
    generalize (if update = true then riscvInterruptClear vm (externalIrq smode) else vm) = mid at cleared ⊢
    split
    · exact cleared.trans (aiaScan_effect own update claim _ _ 0 mid)
    · exact cleared

theorem riscvCsrAiaHelper_effect (vm : Hart δ) (files : Bool → AiaRegfile) (reg : AiaReg) (dest : BitVec 64)
    (op : CsrOp) : CsrEffect level vm (riscvCsrAiaHelper vm files smode reg dest op).vm := by
  exact .ite ((setAia_effect own vm _).trans (riscvUpdateAiaInternal_effect own true false _))
    (setAia_effect own vm _)

theorem riscvCsrAiaPairHelper_effect (vm : Hart δ) (reg : Nat) (arr : Fin 8 → AiaReg) (dest : BitVec 64)
    (op : CsrOp) : CsrEffect level vm (riscvCsrAiaPairHelper vm smode reg arr dest op).vm := by
  unfold riscvCsrAiaPairHelper
  split
  · exact .refl vm
  split
  · exact .refl vm
  split
  · dsimp only
    split
    · exact riscvCsrAiaHelper_effect own vm _ _ dest op
    · split
      · exact (riscvCsrAiaHelper_effect own vm _ _ dest op).trans
          (riscvCsrAiaHelper_effect own _ _ _ (dest >>> 32) op)
      · exact riscvCsrAiaHelper_effect own vm _ _ dest op
  · exact .refl vm

end Files

section Registers
variable (vm : Hart δ) (dest : BitVec 64) (op : CsrOp)

section
variable (priv : Priv) (named : priv = .supervisor ∨ priv = .machine)
include priv named

theorem own_level :
    (if priv == .supervisor then 1 else 3) ≤ priv.code := by
  rcases named with rfl | rfl <;> decide

theorem riscvCsrIndirect_effect
    (csri : BitVec 64) : CsrEffect priv.code vm (riscvCsrIndirect vm priv csri dest op).vm := by
  have own := own_level priv named
  unfold riscvCsrIndirect
  dsimp only
  split
  · exact .refl vm
  split
  · exact riscvCsrAiaHelper_effect own vm _ _ _ op
  split
  · exact riscvCsrAiaHelper_effect own vm _ _ _ op
  split
  · exact .refl vm
  split
  · exact riscvCsrAiaPairHelper_effect own vm _ _ dest op
  split
  · exact riscvCsrAiaPairHelper_effect own vm _ _ dest op
  · exact .refl vm

theorem riscvCsrTopei_effect :
    CsrEffect priv.code vm (riscvCsrTopei vm priv dest op).vm := by
  have own := own_level priv named
  unfold riscvCsrTopei
  split
  · exact riscvUpdateAiaInternal_effect own true _ vm
  · exact .refl vm
end

variable {shield : BitVec 64}

theorem riscvCsrHelperMasked_kept (rv64 : Bool) (csr mask : BitVec 64)
    (disjoint : mask &&& shield = 0) :
    (riscvCsrHelperMasked rv64 csr dest mask op).1 &&& shield = csr &&& shield := by
  apply eq_of_getLsbD_eq
  intro i below
  have bit := getLsbD_of_disjoint disjoint i
  cases inside : shield.getLsbD i with
  | false => rw [getLsbD_and, getLsbD_and, inside, Bool.and_false, Bool.and_false]
  | true =>
    have clear : mask.getLsbD i = false := by
      rw [inside, Bool.and_true] at bit
      exact bit
    cases op <;> cases rv64 <;>
      simp only [riscvCsrHelperMasked, if_true, if_false, Bool.false_eq_true, getLsbD_and,
        getLsbD_or, getLsbD_not, below, inside, clear, decide_true,
        Bool.and_true, Bool.and_false, Bool.false_and, Bool.or_false, Bool.not_false]

variable {level : Nat} {mask : BitVec 64}

section
variable (notUser : 1 ≤ level) (own : level < 3 → mask &&& ~~~ csrSeipMask = 0)
include notUser own

theorem riscvCsrIe_effect : CsrEffect level vm (riscvCsrIe vm dest mask op).vm := by
  have kept := hidden_congr notUser fun low =>
    riscvCsrHelperMasked_kept dest op vm.rv64 vm.csr.ie mask (own low)
  have stored (ie : BitVec 64) (same : hidden level (~~~ csrSeipMask) ie = (shielded level vm).ie) :
      CsrEffect level vm (vm.setCsr { vm.csr with ie := ie }) :=
    ⟨rfl, congrArg (fun ie => { shielded level vm with ie := ie }) same, .of_same rfl rfl rfl rfl⟩
  exact (stored _ kept).trans (riscvHartCheckInterrupts_effect _)

theorem riscvCsrIp_effect : CsrEffect level vm (riscvCsrIp vm dest mask op).vm := by
  have kept := hidden_congr notUser fun low =>
    riscvCsrHelperMasked_kept dest op vm.rv64 vm.csr.ip mask (own low)
  have stored (ip : BitVec 64) (same : hidden level (~~~ csrSeipMask) ip = (shielded level vm).ip) :
      CsrEffect level vm (vm.setCsr { vm.csr with ip := ip }) :=
    ⟨rfl, congrArg (fun ip => { shielded level vm with ip := ip }) same, .of_same rfl rfl rfl rfl⟩
  exact (stored _ kept).trans (riscvHartCheckInterrupts_effect _)
end

theorem bitReplace_kept (val field : BitVec 64) (pos bits : Nat)
    (disjoint : shield.extractLsb' pos bits = 0) :
    bitReplace val pos bits field &&& shield = val &&& shield := by
  apply eq_of_getLsbD_eq
  intro i below
  rw [getLsbD_and, getLsbD_and, getLsbD_bitReplace _ _ _ _ _ below]
  by_cases inside : pos ≤ i ∧ i < pos + bits
  · have clear := congrArg (·.getLsbD (i - pos)) disjoint
    simp only [getLsbD_extractLsb', show i - pos < bits by omega, Nat.add_sub_cancel' inside.1,
      decide_true, Bool.true_and] at clear
    rw [clear]
    simp
  · rw [if_neg inside]

theorem ite_kept {p : Prop} [Decidable p] {val field : BitVec 64} {pos bits : Nat}
    (disjoint : shield.extractLsb' pos bits = 0) :
    (if p then bitReplace val pos bits field else val) &&& shield = val &&& shield := by
  split
  · exact bitReplace_kept val field pos bits disjoint
  · rfl

theorem statusWarl_kept (machineRv64 : Bool) (status : BitVec 64) :
    statusWarl machineRv64 status &&& statusShield = status &&& statusShield := by
  unfold statusWarl
  rw [bitReplace_kept _ _ _ _ (by decide), ite_kept (by decide), ite_kept (by decide), ite_kept (by decide)]

theorem riscvCsrStatus_effect (notUser : 1 ≤ level)
    (own : level < 3 → mask &&& statusShield = 0) :
    CsrEffect level vm (riscvCsrStatus vm dest mask op).vm := by
  have stored (vm' : Hart δ) (status : BitVec 64)
      (same : hidden level statusShield status = (shielded level vm').status)
      (legal : StatusLegal vm'.machineRv64 status) : CsrEffect level vm' (vm'.setStatus status) :=
    ⟨rfl, congrArg (fun status => { shielded level vm' with status := status }) same,
      .setStatus _ fun _ => legal⟩
  have kept (fs : BitVec 64) := hidden_congr notUser fun low =>
    (statusWarl_kept vm.machineRv64 _).trans
      ((riscvCsrHelperMasked_kept dest op vm.rv64 (bitReplace vm.csr.status 15 2 fs) mask (own low)).trans
        (bitReplace_kept _ _ _ _ (by decide)))
  unfold riscvCsrStatus
  rw [apply_ite CsrResult.vm]
  refine .ite ?_ (.refl vm)
  have checked {p : Prop} [Decidable p] : CsrEffect level vm (if p then riscvHartCheckInterrupts vm else vm) :=
    .ite (riscvHartCheckInterrupts_effect vm) (.refl vm)
  refine checked.trans (stored _ _ ((kept _).trans ?_) ?_)
  · exact congrArg Shielded.status checked.shield.symm
  · rw [checked.control]
    exact statusWarl_legal _ _

theorem riscvCsrStimecmpSet_effect (notUser : 1 ≤ level) (stimecmp : BitVec 64) :
    CsrEffect level vm (riscvCsrStimecmpSet vm stimecmp) := by
  have own (_ : level < 3) : irqMask 5 &&& ~~~ 0x220#32 = 0 := by decide
  have stored : CsrEffect level vm { vm with stimecmp := stimecmp } := by
    refine ⟨rfl, ?_, .refl _⟩
    simp [shielded, not_lt.mpr notUser]
  exact .ite (stored.trans (riscvInterrupt_effect _ notUser own))
    (stored.trans (riscvInterruptClear_effect _ notUser own))

theorem riscvCsrSatp_effect (notUser : 1 ≤ level) :
    CsrEffect level vm (riscvCsrSatp vm dest op).vm := by
  have stored (root : Addr) : CsrEffect level vm { vm with rootPageTable := root } := by
    refine ⟨rfl, ?_, .refl _⟩
    simp [shielded, not_lt.mpr notUser]
  have switched (root : Addr) (mode : SatpMode) :
      CsrEffect level vm { riscvTlbFlush { vm with rootPageTable := root } with mmuMode := mode } := by
    refine ⟨rfl, ?_, .refl _⟩
    simp [shielded, riscvTlbFlush, riscvRestartDispatch, riscvJitTlbFlush, not_lt.mpr notUser]
  unfold riscvCsrSatp
  dsimp only
  split
  · exact .refl vm
  split
  · exact .refl vm
  · split
    · exact switched _ _
    · exact stored _

theorem riscvCsrMisa_effect : CsrEffect 3 vm (riscvCsrMisa vm dest op).vm := by
  have set (isa : BitVec 64) : CsrEffect 3 vm (riscvUpdateXlen (vm.setCsr { vm.csr with isa := isa })) :=
    (CsrEffect.of_machine rfl (.of_same rfl rfl rfl rfl) :
      CsrEffect 3 vm (vm.setCsr { vm.csr with isa := isa })).trans
      (riscvUpdateXlen_effect _)
  unfold riscvCsrMisa
  dsimp only
  split
  · exact set _
  split
  · split
    · exact set _
    · exact .refl vm
  · exact .refl vm

end Registers

namespace CsrName

/-- The privilege number a register belongs to. Registers that only read as zero have none. -/
def level : CsrName → Nat
  | fflags | frm | fcsr | seed | counter _ | counterH _ | zero | zeroH => 0
  | sstatus | satp | sie | sip | stopi | stimecmp | stimecmpH | senvcfg => 1
  | mstatus | misa | mie | mip | mtopi | medeleg | mideleg | menvcfg | menvcfgH | mseccfg | mseccfgH
  | marchid | mimpid | mhartid => 3
  | tvec p | scratch p | epc p | cause p | tval p | counteren p | iselect p | ireg p | topei p => p.code

def constant : CsrName → Bool
  | counter _ | counterH _ | stopi | mtopi | marchid | mimpid | mhartid | zero | zeroH => true
  | _ => false

def hasFile : CsrName → Bool
  | ireg p | topei p => p == .supervisor || p == .machine
  | _ => true

end CsrName

/-- The numbering of the registers encodes their privilege and whether they are read-only. -/
theorem csrName_numbered (id : BitVec 12) {name : CsrName} (present : csrName id = some name) :
    name.level ≤ riscvCsrPrivilege id ∧ name.hasFile = true ∧
      (riscvCsrReadonly id = true → name.constant = true) := by
  unfold csrName at present
  split at present
  case h_60 =>
    split at present
    · cases present
      exact ⟨Nat.zero_le _, rfl, fun _ => rfl⟩
    · split at present
      · cases present
        exact ⟨Nat.zero_le _, rfl, fun _ => rfl⟩
      · contradiction
  all_goals
    rename_i number
    cases present
    have word : id = BitVec.ofNat 12 id.toNat := by
      rw [ofNat_toNat, setWidth_eq]
    rw [number] at word
    subst word
    decide

section Access
variable (vm : Hart δ) (dest : BitVec 64) (op : CsrOp) {level : Nat}

theorem CsrEffect.guarded {p : Prop} [Decidable p] {granted denied : CsrResult δ}
    (yes : CsrEffect level vm granted.vm) (no : CsrEffect level vm denied.vm) :
    CsrEffect level vm (if p then granted else denied).vm := by
  rw [apply_ite CsrResult.vm]
  exact .ite yes no

section
variable (result : BitVec 64 × BitVec 64) (store : BitVec 64 → Csr)
  (control : ∀ value, OnlyControl vm (vm.setCsr (store value)))
include result store control

theorem csrStore_effect
    (kept : ∀ value, shielded level (vm.setCsr (store value)) = shielded level vm)
    (warl : WarlKept vm.machineRv64 vm.csr (store result.1)) : CsrEffect level vm (csrStore vm result store).vm :=
  ⟨control result.1, kept result.1, warl⟩

theorem csrStore_machine
    (warl : WarlKept vm.machineRv64 vm.csr (store result.1)) : CsrEffect 3 vm (csrStore vm result store).vm :=
  .of_machine (control result.1) warl
end

theorem riscvUpdateFflags_effect : CsrEffect level vm (riscvUpdateFflags vm) :=
  ⟨rfl, rfl, .of_same rfl rfl rfl rfl⟩

theorem riscvCsrHelperMasked_outside (csr mask : BitVec 64) :
    (riscvCsrHelperMasked vm.rv64 csr dest mask op).1 &&& ~~~ mask = csr &&& ~~~ mask :=
  riscvCsrHelperMasked_kept dest op vm.rv64 csr mask (and_not_self mask)

theorem riscvCsrAccess_effect (name : CsrName) (file : name.hasFile = true) :
    CsrEffect name.level vm (riscvCsrAccess vm dest op name).vm := by
  cases name with
  | fflags | fcsr =>
    exact .guarded vm ((riscvUpdateFflags_effect vm).trans (riscvUpdateFcsr_effect _ _ _)) (.refl vm)
  | frm => exact .guarded vm (riscvUpdateFcsr_effect _ _ _) (.refl vm)
  | seed => exact .guarded vm (.refl vm) (.guarded vm (.refl vm) (.refl vm))
  | counter i | counterH i | stopi | mtopi | zeroH => exact .guarded vm (.refl vm) (.refl vm)
  | sstatus => exact riscvCsrStatus_effect vm dest op (by decide) (fun _ => by decide)
  | mstatus => exact riscvCsrStatus_effect vm dest op (by decide) (nofun)
  | misa => exact riscvCsrMisa_effect vm dest op
  | satp => exact riscvCsrSatp_effect vm dest op (by decide)
  | sie => exact riscvCsrIe_effect vm dest op (by decide) (fun _ => by decide)
  | mie => exact riscvCsrIe_effect vm dest op (by decide) (nofun)
  | sip => exact riscvCsrIp_effect vm dest op (by decide) (fun _ => by decide)
  | mip => exact riscvCsrIp_effect vm dest op (by decide) (nofun)
  | stimecmp | stimecmpH => exact .guarded vm (riscvCsrStimecmpSet_effect vm (by decide) _) (.refl vm)
  | tvec p =>
    refine csrStore_effect vm _ _ (fun _ => rfl) (fun value => ?_)
      (.setTvec _ p (riscvCsrTvec_legal vm.rv64 _ dest op))
    simp [shielded, Hart.setCsr, CsrName.level, above_update (le_refl p.code)]
  | scratch p | epc p | cause p | tval p | counteren p | iselect p =>
    refine csrStore_effect vm _ _ (fun _ => rfl) (fun value => ?_) (.of_same rfl rfl rfl rfl)
    simp [shielded, Hart.setCsr, CsrName.level, above_update (le_refl p.code)]
  | ireg p => exact riscvCsrIndirect_effect vm dest op p (by simpa [CsrName.hasFile] using file) _
  | topei p => exact riscvCsrTopei_effect vm dest op p (by simpa [CsrName.hasFile] using file)
  | medeleg =>
    exact csrStore_machine vm _ _ (fun _ => rfl)
      (.setMedeleg _ (riscvCsrHelperMasked_outside vm dest op _ csrMedelegMask))
  | mideleg =>
    exact csrStore_machine vm _ _ (fun _ => rfl)
      (.setMideleg _ (riscvCsrHelperMasked_outside vm dest op _ csrMidelegMask))
  | menvcfg | mseccfg => exact csrStore_machine vm _ _ (fun _ => rfl) (.of_same rfl rfl rfl rfl)
  | menvcfgH | mseccfgH =>
    exact .guarded vm (.refl vm) (csrStore_machine vm _ _ (fun _ => rfl) (.of_same rfl rfl rfl rfl))
  | senvcfg =>
    refine csrStore_effect vm _ _ (fun _ => rfl) (fun value => ?_) (.of_same rfl rfl rfl rfl)
    simp [shielded, Hart.setCsr, CsrName.level, above_update (by decide : Priv.supervisor.code ≤ 1)]
  | marchid | mimpid | mhartid | zero => exact .refl vm

/-- A handler that fails has changed nothing. -/
def CsrResult.Atomic (result : CsrResult δ) : Prop := result.ret = false → result.vm = vm

theorem CsrResult.Atomic.guarded {p : Prop} [Decidable p] {granted denied : CsrResult δ}
    (yes : granted.Atomic vm) (no : denied.Atomic vm) :
    CsrResult.Atomic vm (if p then granted else denied) := by
  split
  · exact yes
  · exact no

theorem CsrResult.Atomic.denied (value : BitVec 64) : CsrResult.Atomic vm ⟨false, value, vm⟩ :=
  fun _ => rfl

theorem CsrResult.Atomic.granted {result : CsrResult δ} (ret : result.ret = true) : result.Atomic vm := by
  intro failed
  rw [ret] at failed
  contradiction

theorem riscvCsrStatus_ret (mask : BitVec 64) : (riscvCsrStatus vm dest mask op).ret = true := by
  unfold riscvCsrStatus
  rw [apply_ite CsrResult.ret, ite_self]

theorem riscvCsrMisa_ret : (riscvCsrMisa vm dest op).ret = true := by
  unfold riscvCsrMisa
  rw [apply_ite CsrResult.ret, apply_ite CsrResult.ret, ite_self, ite_self]

theorem riscvCsrSatp_atomic : (riscvCsrSatp vm dest op).Atomic vm := by
  refine .guarded vm (.denied vm dest) ?_
  dsimp only
  split
  · exact .granted vm rfl
  · exact .guarded vm (.granted vm rfl) (.granted vm rfl)

theorem riscvCsrAiaPairHelper_atomic (smode : Bool) (reg : Nat) (arr : Fin 8 → AiaReg) :
    (riscvCsrAiaPairHelper vm smode reg arr dest op).Atomic vm := by
  unfold riscvCsrAiaPairHelper
  split
  · exact .denied vm dest
  split
  · exact .denied vm dest
  split
  · dsimp only
    split
    · exact .granted vm rfl
    · split
      · exact .granted vm rfl
      · exact .granted vm rfl
  · exact .denied vm dest

theorem riscvCsrIndirect_atomic (priv : Priv) (csri : BitVec 64) :
    (riscvCsrIndirect vm priv csri dest op).Atomic vm := by
  unfold riscvCsrIndirect
  split
  · exact .denied vm dest
  · refine .guarded vm (.granted vm rfl) (.guarded vm (.granted vm rfl) (.guarded vm (.granted vm rfl) ?_))
    refine .guarded vm (riscvCsrAiaPairHelper_atomic vm dest op _ _ _) (.guarded vm ?_ (.denied vm dest))
    exact riscvCsrAiaPairHelper_atomic vm dest op _ _ _

theorem riscvCsrAccess_atomic (name : CsrName) : (riscvCsrAccess vm dest op name).Atomic vm := by
  cases name with
  | fflags | frm | fcsr | counter i | counterH i | stopi | mtopi | stimecmp | stimecmpH | topei p =>
    exact .guarded vm (.granted vm rfl) (.denied vm dest)
  | seed => exact .guarded vm (.denied vm dest) (.guarded vm (.granted vm rfl) (.denied vm dest))
  | sstatus | mstatus => exact .granted vm (riscvCsrStatus_ret vm dest op _)
  | misa => exact .granted vm (riscvCsrMisa_ret vm dest op)
  | satp => exact riscvCsrSatp_atomic vm dest op
  | ireg p => exact riscvCsrIndirect_atomic vm dest op p _
  | menvcfgH | mseccfgH | zeroH => exact .guarded vm (.denied vm dest) (.granted vm rfl)
  | _ => exact .granted vm rfl

theorem riscvCsrAccess_constant (name : CsrName) (constant : name.constant = true) :
    (riscvCsrAccess vm dest op name).vm = vm := by
  have either {p : Prop} [Decidable p] (a b : BitVec 64) (r : Bool) :
      (if p then (⟨true, a, vm⟩ : CsrResult δ) else ⟨r, b, vm⟩).vm = vm := by
    split <;> rfl
  cases name with
  | counter i | counterH i | stopi | mtopi => exact either _ _ _
  | zeroH =>
    change (if vm.rv64 then (⟨false, dest, vm⟩ : CsrResult δ) else riscvCsrConst vm 0).vm = vm
    split <;> rfl
  | marchid | mimpid | mhartid | zero => rfl
  | _ => contradiction

end Access

/-! A privilege that may not change something leaves fewer things to the higher ones. -/

variable {low high : Nat}

theorem above_mono (le : low ≤ high) {a b : Priv → BitVec 64}
    (same : above low a = above low b) : above high a = above high b := by
  funext p
  have here := congrFun same p
  unfold above at here ⊢
  by_cases higher : high < p.code
  · rw [if_pos (lt_of_le_of_lt le higher), if_pos (lt_of_le_of_lt le higher)] at here
    rw [if_pos higher, if_pos higher, here]
  · rw [if_neg higher, if_neg higher]

theorem hidden_mono {w : Nat} (le : low ≤ high) {supervisor a b : BitVec w}
    (same : hidden low supervisor a = hidden low supervisor b) :
    hidden high supervisor a = hidden high supervisor b := by
  rcases Nat.eq_zero_or_pos low with rfl | positive
  · rw [show a = b from same]
  · refine hidden_congr (le_trans positive le) fun small => ?_
    have cases : low = 1 ∨ low = 2 := by omega
    rcases cases with rfl | rfl <;> exact same

theorem ite_some_mono {α : Type} {p q : Prop} [Decidable p] [Decidable q] (weaker : q → p) {a b : α}
    (same : (if p then some a else none) = if p then some b else none) :
    (if q then some a else none) = if q then some b else none := by
  by_cases h : q
  · rw [if_pos (weaker h), if_pos (weaker h)] at same
    rw [if_pos h, if_pos h, same]
  · rw [if_neg h, if_neg h]

theorem CsrEffect.mono {vm vm' : Hart δ} (le : low ≤ high)
    (effect : CsrEffect low vm vm') : CsrEffect high vm vm' := by
  obtain ⟨control, shield, warl⟩ := effect
  refine ⟨control, ?_, warl⟩
  simp only [shielded, Shielded.mk.injEq] at shield ⊢
  obtain ⟨tvec, scratch, epc, cause, tval, counteren, iselect, envcfg, edeleg, ideleg, status, ie, ip,
    pending, machine, supervisor⟩ := shield
  refine ⟨above_mono le tvec, above_mono le scratch, above_mono le epc, above_mono le cause,
    above_mono le tval, above_mono le counteren, above_mono le iselect, above_mono le envcfg,
    above_mono le edeleg, above_mono le ideleg, hidden_mono le status, hidden_mono le ie,
    hidden_mono le ip, hidden_mono le pending, ite_some_mono ?_ machine, ite_some_mono ?_ supervisor⟩
  · exact lt_of_le_of_lt le
  · exact lt_of_le_of_lt le

section Op
variable (vm : Hart δ) (id : BitVec 12) (dest : BitVec 64) (op : CsrOp)

/-- Every access either is denied outright or is one to an implemented register that the
privilege admits. -/
theorem riscvCsrOp_cases :
    (riscvCsrOp vm id dest op).ret = false ∧ (riscvCsrOp vm id dest op).vm = vm ∨
      ∃ name, csrName id = some name ∧ riscvCsrPrivilege id ≤ vm.privMode.code ∧
        (riscvCsrOp vm id dest op).ret = (riscvCsrAccess vm dest op name).ret ∧
          (riscvCsrOp vm id dest op).vm = (riscvCsrAccess vm dest op name).vm := by
  unfold riscvCsrOp
  split
  · exact .inl ⟨rfl, rfl⟩
  split
  · exact .inl ⟨rfl, rfl⟩
  · rename_i privileged
    unfold riscvCsrOpInternal
    cases present : csrName id with
    | none => exact .inl ⟨rfl, rfl⟩
    | some name => exact .inr ⟨name, rfl, not_lt.mp privileged, rfl, rfl⟩

theorem riscvCsrOp_failed (failed : (riscvCsrOp vm id dest op).ret = false) :
    (riscvCsrOp vm id dest op).vm = vm := by
  rcases riscvCsrOp_cases vm id dest op with ⟨-, kept⟩ | ⟨name, -, -, ret, after⟩
  · exact kept
  · rw [after]
    exact riscvCsrAccess_atomic vm dest op name (ret ▸ failed)

theorem riscvCsrOp_readonly (readonly : riscvCsrReadonly id = true) : (riscvCsrOp vm id dest op).vm = vm := by
  rcases riscvCsrOp_cases vm id dest op with ⟨-, kept⟩ | ⟨name, present, -, -, after⟩
  · exact kept
  · rw [after]
    exact riscvCsrAccess_constant vm dest op name ((csrName_numbered id present).2.2 readonly)

theorem riscvCsrOp_privileged (low : vm.privMode.code < riscvCsrPrivilege id) :
    riscvCsrOp vm id dest op = ⟨false, dest, vm⟩ := by
  unfold riscvCsrOp
  rw [if_pos low, ite_self]

theorem riscvCsrOp_effect : CsrEffect vm.privMode.code vm (riscvCsrOp vm id dest op).vm := by
  rcases riscvCsrOp_cases vm id dest op with ⟨-, kept⟩ | ⟨name, present, privileged, -, after⟩
  · rw [kept]
    exact .refl vm
  · obtain ⟨level, file, -⟩ := csrName_numbered id present
    rw [after]
    exact (riscvCsrAccess_effect vm dest op name file).mono (le_trans level privileged)

end Op

/-- A failed access changes nothing at all, a read-only register is never modified, a register above the
current privilege is neither read nor written by its number, and what `shielded` keeps of those registers is
kept by every access. Supervisor mode does write parts of `mstatus`, `mie`, `mip` and the pending interrupts:
the fields it sees through `sstatus`, `sie` and `sip`, and MPP and SXL, which a write to `sstatus` makes
legal. -/
theorem csr_op_protected {δ : Type} (vm : Hart δ) (id : BitVec 12) (dest : BitVec 64) (op : CsrOp) :
    ((riscvCsrOp vm id dest op).ret = false → (riscvCsrOp vm id dest op).vm = vm) ∧
      (riscvCsrReadonly id = true → (riscvCsrOp vm id dest op).vm = vm) ∧
        (vm.privMode.code < riscvCsrPrivilege id → riscvCsrOp vm id dest op = ⟨false, dest, vm⟩) ∧
          OnlyControl vm (riscvCsrOp vm id dest op).vm ∧
            shielded vm.privMode.code (riscvCsrOp vm id dest op).vm = shielded vm.privMode.code vm :=
  ⟨riscvCsrOp_failed vm id dest op, riscvCsrOp_readonly vm id dest op,
    riscvCsrOp_privileged vm id dest op, (riscvCsrOp_effect vm id dest op).control,
    (riscvCsrOp_effect vm id dest op).shield⟩

end Rvvm
