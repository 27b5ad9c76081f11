import Rvvm.Library.BitWords
import Rvvm.Library.Runs
import Rvvm.Devices.Ethoc

/-! Descriptor indices. Both cursors are moved past the descriptor just used before they are compared with
the end of their part, so each ring stays in its part only where its last descriptor says that it wraps. -/
namespace Rvvm.Ethoc
open BitWords Emitting Runs

/-- Inside the table, and in its own part of it if the descriptor is taken. -/
def EthocEvent.Indexed : EthocEvent → Prop
  | .access .tx index consumed txBdNum => index < ethocBdCount ∧ (consumed = true → index < txBdNum)
  | .access .rx index consumed txBdNum => index < ethocBdCount ∧ (consumed = true → txBdNum ≤ index)
  | .irq => True

/-- Wraps if it is ready to be sent from or, which is the same bit, empty. -/
def EthocBd.Bounded (bd : EthocBd) : Prop := bd.data &&& ethocTxbdRd ≠ 0 → bd.data &&& ethocBdWrap ≠ 0

instance (bd : EthocBd) : Decidable bd.Bounded := inferInstanceAs (Decidable (_ → _))

def EthocDev.txen (eth : EthocDev) : Prop := eth.moder &&& ethocModerTxen ≠ 0

def EthocDev.rxen (eth : EthocDev) : Prop := eth.moder &&& ethocModerRxen ≠ 0

instance (eth : EthocDev) : Decidable eth.txen := inferInstanceAs (Decidable (_ ≠ _))

instance (eth : EthocDev) : Decidable eth.rxen := inferInstanceAs (Decidable (_ ≠ _))

/-- The last descriptor of each enabled ring is bounded, and the split moves only while both are off. -/
def EthocReg.WriteOk (eth : EthocDev) (val : BitVec 32) : EthocReg → Prop
  | .moder =>
    (eth.moderOf val &&& ethocModerTxen ≠ 0 → (eth.bdbuf (eth.txBdNum - 1)).Bounded) ∧
    (eth.moderOf val &&& ethocModerRxen ≠ 0 → (eth.bdbuf (ethocBdCount - 1)).Bounded)
  | .txBdNum => ¬ eth.txen ∧ ¬ eth.rxen
  | .bdData bdid =>
    (eth.txen → bdid = eth.txBdNum - 1 → (⟨val, 0⟩ : EthocBd).Bounded) ∧
    (eth.rxen → bdid = ethocBdCount - 1 → (⟨val, 0⟩ : EthocBd).Bounded)
  | _ => True

instance (eth : EthocDev) (val : BitVec 32) : (reg : EthocReg) → Decidable (reg.WriteOk eth val)
  | .moder => inferInstanceAs (Decidable ((_ → _) ∧ (_ → _)))
  | .txBdNum => inferInstanceAs (Decidable (¬ _ ∧ ¬ _))
  | .bdData _ => inferInstanceAs (Decidable ((_ → _ → _) ∧ (_ → _ → _)))
  | .intSrc | .intMask | .packetlen | .miicommand | .plain _ | .bdPtr _ | .unmapped => isTrue trivial

def EthocOk (eth : EthocDev) : EthocInput → Prop
  | .write offset val _ => (ethocReg offset).WriteOk eth val
  | .feedRx _ => True
  | .reset => True

instance (eth : EthocDev) : (input : EthocInput) → Decidable (EthocOk eth input)
  | .write offset val _ => inferInstanceAs (Decidable ((ethocReg offset).WriteOk eth val))
  | .feedRx _ => isTrue trivial
  | .reset => isTrue trivial

/-! The invariant. -/

structure EthocInv (eth : EthocDev) : Prop where
  split : eth.txBdNum ≤ ethocBdCount
  tx : eth.txen → eth.curTxbd < eth.txBdNum ∧ (eth.bdbuf (eth.txBdNum - 1)).Bounded
  rx : eth.rxen → (eth.txBdNum ≤ eth.curRxbd ∧ eth.curRxbd < ethocBdCount) ∧ (eth.bdbuf (ethocBdCount - 1)).Bounded

/-- Reached from a state by frames coming in. -/
structure FedFrom (start eth : EthocDev) : Prop where
  inv : EthocInv eth
  moder : eth.moder = start.moder
  txBdNum : eth.txBdNum = start.txBdNum
  curTxbd : eth.curTxbd = start.curTxbd
  txbd : ∀ index < start.txBdNum, eth.bdbuf index = start.bdbuf index

/-- The current descriptor has been sent from and is no longer ready. -/
structure Sent (index : Nat) (eth : EthocDev) : Prop where
  inv : EthocInv eth
  txen : eth.txen
  curTxbd : eth.curTxbd = index
  wraps : index + 1 = eth.txBdNum → (eth.bdbuf index).data &&& ethocBdWrap ≠ 0

variable {eth : EthocDev}

theorem EthocInv.withIntSrc (inv : EthocInv eth) (intSrc : BitVec 32) :
    EthocInv { eth with intSrc } := ⟨inv.split, inv.tx, inv.rx⟩

theorem FedFrom.withIntSrc {start eth : EthocDev} (fed : FedFrom start eth) (intSrc : BitVec 32) :
    FedFrom start { eth with intSrc } :=
  ⟨fed.inv.withIntSrc intSrc, fed.moder, fed.txBdNum, fed.curTxbd, fed.txbd⟩

theorem Sent.withIntSrc {index : Nat} (sent : Sent index eth) (intSrc : BitVec 32) :
    Sent index { eth with intSrc } := ⟨sent.inv.withIntSrc intSrc, sent.txen, sent.curTxbd, sent.wraps⟩

theorem ethocInterrupt_keeps {pre : EthocDev → Prop} (blind : ∀ eth intSrc, pre eth → pre { eth with intSrc })
    (intNum : Nat) : Triple EthocEvent.Indexed pre (ethocInterrupt intNum) fun _ => pre := by
  refine .get fun v met => .step (.known (blind v _ met) (.ite (fun _ => .emit trivial) fun _ => ?_))
  exact .pure fun _ kept => kept

theorem taken_iff (data : BitVec 32) : data &&& ethocTxbdRd ≠ 0 ↔ data.getLsbD 15 = true :=
  and_mask_ne_zero data 15

theorem wrap_iff (data : BitVec 32) : data &&& ethocBdWrap ≠ 0 ↔ data.getLsbD 13 = true := and_mask_ne_zero data 13

theorem bounded_of_clear {bd : EthocBd} (clear : bd.data.getLsbD 15 = false) : bd.Bounded := by
  intro taken
  rw [taken_iff, clear] at taken
  exact absurd taken Bool.false_ne_true

theorem setData_self (eth : EthocDev) (index : Nat) (data : BitVec 32) :
    (eth.setData index data).bdbuf index = { eth.bdbuf index with data } := Function.update_self ..

theorem setData_of_ne (eth : EthocDev) {index other : Nat} (data : BitVec 32) (apart : other ≠ index) :
    (eth.setData index data).bdbuf other = eth.bdbuf other := Function.update_of_ne apart ..

section Reception

variable {start eth : EthocDev} (fed : FedFrom start eth)
include fed

theorem FedFrom.put (rxen : eth.rxen) {data : BitVec 32} (clear : data.getLsbD 15 = false) :
    FedFrom start (eth.setData eth.curRxbd data) := by
  obtain ⟨⟨low, high⟩, bounded⟩ := fed.inv.rx rxen
  refine ⟨⟨fed.inv.split, fun txen => ?_, fun _ => ⟨⟨low, high⟩, ?_⟩⟩, fed.moder, fed.txBdNum, fed.curTxbd, ?_⟩
  · obtain ⟨inside, last⟩ := fed.inv.tx txen
    refine ⟨inside, ?_⟩
    rw [setData_of_ne eth data (by simp only [EthocDev.setData]; omega)]
    exact last
  · by_cases here : ethocBdCount - 1 = eth.curRxbd
    · rw [here, setData_self]
      exact bounded_of_clear clear
    · rw [setData_of_ne eth data here]
      exact bounded
  · intro index inside
    rw [setData_of_ne eth data (by rw [← fed.txBdNum] at inside; omega)]
    exact fed.txbd index inside

theorem FedFrom.moveRx {cursor : Nat} (inside : eth.txBdNum ≤ cursor ∧ cursor < ethocBdCount) :
    FedFrom start { eth with curRxbd := cursor } :=
  ⟨⟨fed.inv.split, fed.inv.tx, fun rxen => ⟨inside, (fed.inv.rx rxen).2⟩⟩, fed.moder, fed.txBdNum, fed.curTxbd,
    fed.txbd⟩

end Reception

theorem ethocFeedRx_keeps (dma : BitVec 32 → Nat → Bool) (start : EthocDev) (size : Nat) :
    Triple EthocEvent.Indexed (FedFrom start) (ethocFeedRx dma size) fun _ => FedFrom start := by
  have interrupt (intNum : Nat) : Triple EthocEvent.Indexed (FedFrom start) (ethocInterrupt intNum) fun _ =>
      FedFrom start := ethocInterrupt_keeps (fun _ intSrc fed => fed.withIntSrc intSrc) intNum
  refine .get fun v fed => .ite (fun _ => .known fed (.pure fun _ kept => kept)) fun rxen => ?_
  obtain ⟨⟨low, high⟩, bounded⟩ := fed.inv.rx rxen
  refine .bind (.emit ⟨high, fun _ => low⟩) fun _ =>
    .ite (fun _ => .known fed (.pure fun _ kept => kept)) fun empty => ?_
  have last : v.curRxbd = ethocBdCount - 1 → (v.bdbuf v.curRxbd).data.getLsbD 13 = true := by
    intro here
    rw [← here] at bounded
    exact (wrap_iff _).mp (bounded empty)
  refine .ite (fun _ => .step ?_) fun _ => .step (.step ?_)
  · refine .known (fed.put rxen ?_) (.bind (interrupt _) fun _ => .pure fun _ kept => kept)
    simp [ethocRxbdE, ethocRxbdOr]
  · refine .known ?_ (.ite (fun _ => .bind (interrupt _) fun _ => .pure fun _ kept => kept)
      fun _ => .pure fun _ kept => kept)
    have clear : ((BitVec.ofNat 32 (size + 4) &&& 0xFFFF) <<< 16 |||
        ((v.bdbuf v.curRxbd).data &&& ~~~ ethocRxbdE &&& 0xFFFF)).getLsbD 15 = false := by
      simp [ethocRxbdE]
    have stored := fed.put rxen clear
    split
    · next wraps => exact stored.moveRx ⟨le_rfl, lt_of_le_of_lt low high⟩
    · next goes =>
        have inner : v.curRxbd ≠ ethocBdCount - 1 := by
          intro here
          refine goes (.inl ((wrap_iff _).mpr ?_))
          simp [ethocRxbdE, last here]
        rw [ethocBdCount] at inner high
        refine stored.moveRx ?_
        show v.txBdNum ≤ (v.curRxbd + 1) % 2 ^ 32 ∧ (v.curRxbd + 1) % 2 ^ 32 < 0x80
        omega

theorem FedFrom.refl (inv : EthocInv eth) : FedFrom eth eth :=
  ⟨inv, rfl, rfl, rfl, fun _ _ => rfl⟩

theorem FedFrom.sent {start eth : EthocDev} (fed : FedFrom start eth) (txen : start.txen)
    (ready : (start.bdbuf start.curTxbd).data &&& ethocTxbdRd ≠ 0) (inv : EthocInv start) {data : BitVec 32}
    (clear : data.getLsbD 15 = false) (wrap : data.getLsbD 13 = (eth.bdbuf eth.curTxbd).data.getLsbD 13) :
    Sent start.curTxbd (eth.setData eth.curTxbd data) := by
  have on : eth.txen := by
    rw [EthocDev.txen, fed.moder]
    exact txen
  obtain ⟨inside, last⟩ := fed.inv.tx on
  refine ⟨⟨fed.inv.split, fun _ => ⟨inside, ?_⟩, fun rxen => ?_⟩, on, fed.curTxbd, fun here => ?_⟩
  · show ((eth.setData eth.curTxbd data).bdbuf (eth.txBdNum - 1)).Bounded
    by_cases here : eth.txBdNum - 1 = eth.curTxbd
    · rw [here, setData_self]
      exact bounded_of_clear clear
    · rw [setData_of_ne eth data here]
      exact last
  · obtain ⟨⟨low, high⟩, bounded⟩ := fed.inv.rx rxen
    refine ⟨⟨low, high⟩, ?_⟩
    rw [setData_of_ne eth data (by omega)]
    exact bounded
  · replace here : start.curTxbd + 1 = start.txBdNum := here.trans fed.txBdNum
    have bounded := (inv.tx txen).2
    have index : start.txBdNum - 1 = start.curTxbd := by omega
    rw [index] at bounded
    have kept := fed.txbd start.curTxbd (by omega)
    rw [← fed.curTxbd, setData_self, wrap_iff]
    rw [wrap, fed.curTxbd, kept, ← wrap_iff]
    exact bounded ready

theorem ethocSend_sends (dma : BitVec 32 → Nat → Bool) (answer : TapAnswer) {v : EthocDev} (inv : EthocInv v)
    (txen : v.txen) (ready : (v.bdbuf v.curTxbd).data &&& ethocTxbdRd ≠ 0) :
    Triple EthocEvent.Indexed (· = v) (ethocSend dma answer) fun _ => Sent v.curTxbd := by
  have interrupt (intNum : Nat) : Triple EthocEvent.Indexed (Sent v.curTxbd) (ethocInterrupt intNum) fun _ =>
      Sent v.curTxbd := ethocInterrupt_keeps (fun _ intSrc sent => sent.withIntSrc intSrc) intNum
  have replies : Triple EthocEvent.Indexed (FedFrom v) (answer.replies.forM fun size => do
      let _ ← ethocFeedRx dma size) fun _ => FedFrom v :=
    .forM (fun size => .bind (ethocFeedRx_keeps dma v size) fun _ => .pure fun _ kept => kept) _
  refine .get fun u same => ?_
  subst same
  refine .ite (fun _ => .known (.refl inv) (.bind replies fun _ => .ite (fun _ => ?_) fun _ => ?_)) fun _ => .step ?_
  · refine .bind (.modify fun eth fed => fed.sent txen ready inv ?_ ?_) fun _ => .get fun w sent =>
      .ite (fun _ => .known sent (interrupt _)) fun _ => .known sent (.pure fun _ kept => kept)
    · simp [ethocTxbdRd]
    · simp [ethocTxbdRd]
  · refine .bind (.modify fun eth fed => fed.sent txen ready inv ?_ ?_) fun _ => interrupt _
    · simp [ethocTxbdRd, ethocTxbdRl]
    · simp [ethocTxbdRd, ethocTxbdRl]
  · refine .known ((FedFrom.refl inv).sent txen ready inv ?_ ?_) (interrupt _)
    · simp [ethocTxbdRd, ethocTxbdCs]
    · simp [ethocTxbdRd, ethocTxbdCs]

theorem ethocAdvanceTx_advances (index : Nat) :
    Triple EthocEvent.Indexed (Sent index) ethocAdvanceTx fun _ => EthocInv := by
  refine .modify fun eth sent => ?_
  obtain ⟨inside, last⟩ := sent.inv.tx sent.txen
  split
  · exact ⟨sent.inv.split, fun _ => ⟨Nat.zero_lt_of_lt inside, last⟩, sent.inv.rx⟩
  · next goes =>
      have inner : index + 1 ≠ eth.txBdNum := fun here => goes (.inl (sent.curTxbd ▸ sent.wraps here))
      rw [← sent.curTxbd] at inner
      refine ⟨sent.inv.split, fun _ => ⟨?_, last⟩, sent.inv.rx⟩
      show (eth.curTxbd + 1) % 2 ^ 32 < eth.txBdNum
      omega

theorem ethocProcessTxLoop_keeps (dma : BitVec 32 → Nat → Bool) (answers : Nat → TapAnswer) (rounds : Nat) :
    Triple EthocEvent.Indexed EthocInv (ethocProcessTxLoop dma answers rounds) fun _ => EthocInv := by
  induction rounds with
  | zero => exact .pure fun _ kept => kept
  | succ rounds ih =>
    refine .get fun v inv => .ite (fun _ => .known inv (.pure fun _ kept => kept)) fun txen => ?_
    obtain ⟨inside, -⟩ := inv.tx txen
    refine .bind (.emit ⟨lt_of_lt_of_le inside inv.split, fun _ => inside⟩) fun _ =>
      .ite (fun _ => .known inv (.pure fun _ kept => kept)) fun ready => ?_
    exact .bind (ethocSend_sends dma (answers rounds) inv txen ready) fun _ =>
      .bind (ethocAdvanceTx_advances v.curTxbd) fun _ => ih

section Window

variable (dma : BitVec 32 → Nat → Bool) (answers : Nat → TapAnswer)

theorem ethocPokeTx_keeps (bdid : Nat) :
    Triple EthocEvent.Indexed EthocInv (ethocPokeTx dma answers bdid) fun _ => EthocInv :=
  .get fun _ inv => .ite (fun _ => .known inv (ethocProcessTxLoop_keeps dma answers _))
    fun _ => .known inv (.pure fun _ kept => kept)

omit dma answers in
variable {eth : EthocDev} {val : BitVec 32}

theorem moderOf_tx (set : eth.moderOf val &&& ethocModerTxen ≠ 0) :
    eth.txBdNum ≠ 0 := by
  intro none
  have bit : (eth.moderOf val).getLsbD 1 = true := (and_mask_ne_zero _ 1).mp set
  rw [EthocDev.moderOf] at bit
  split at bit <;> simp [ethocModerTxen] at bit

omit dma answers in
theorem moderOf_rx (set : eth.moderOf val &&& ethocModerRxen ≠ 0) :
    eth.txBdNum < ethocBdCount := by
  by_contra full
  have bit : (eth.moderOf val).getLsbD 0 = true := (and_mask_ne_zero _ 0).mp set
  rw [EthocDev.moderOf, if_pos (not_lt.mp full)] at bit
  simp [ethocModerRxen] at bit

omit dma answers in
theorem steady_flag {x y flag : BitVec 32} (steady : ¬ (x ^^^ y) &&& flag ≠ 0) (set : y &&& flag ≠ 0) :
    x &&& flag ≠ 0 := by
  intro clear
  obtain ⟨b, inY, inFlag⟩ := (and_ne_zero_iff y flag).mp set
  have notX : x.getLsbD b = false := by
    by_contra inX
    exact (and_ne_zero_iff x flag).mpr ⟨b, Bool.not_eq_false _ ▸ inX, inFlag⟩ clear
  refine steady ((and_ne_zero_iff _ flag).mpr ⟨b, ?_, inFlag⟩)
  rw [BitVec.getLsbD_xor, notX, inY, Bool.false_xor]

theorem ethocWriteModer_keeps {v : EthocDev} (inv : EthocInv v) (val : BitVec 32)
    (txLast : v.moderOf val &&& ethocModerTxen ≠ 0 → (v.bdbuf (v.txBdNum - 1)).Bounded)
    (rxLast : v.moderOf val &&& ethocModerRxen ≠ 0 → (v.bdbuf (ethocBdCount - 1)).Bounded) :
    Triple EthocEvent.Indexed (· = v) (ethocWriteModer dma answers val) fun _ => EthocInv := by
  refine .get fun u same => ?_
  subst same
  have switched : EthocInv { u with
      moder := u.moderOf val
      curTxbd := if (u.moder ^^^ u.moderOf val) &&& ethocModerTxen ≠ 0 then 0 else u.curTxbd
      curRxbd := if (u.moder ^^^ u.moderOf val) &&& ethocModerRxen ≠ 0 then u.txBdNum else u.curRxbd } := by
    refine ⟨inv.split, fun txen => ⟨?_, txLast txen⟩, fun rxen => ⟨?_, rxLast rxen⟩⟩
    · split
      · exact Nat.pos_of_ne_zero (moderOf_tx txen)
      · next steady => exact (inv.tx (steady_flag steady txen)).1
    · dsimp only
      split
      · exact ⟨le_rfl, moderOf_rx rxen⟩
      · next steady => exact (inv.rx (steady_flag steady rxen)).1
  refine .step (.step (.ite (fun toggled => .step (.known ?_ (ethocProcessTxLoop_keeps dma answers _)))
    fun steady => .known ?_ (.pure fun _ kept => kept)))
  · rw [if_pos toggled] at switched
    split at switched <;> split <;> first | exact switched | contradiction
  · rw [if_neg steady] at switched
    split at switched <;> split <;> first | exact switched | contradiction

omit dma answers in
theorem EthocInv.setData (inv : EthocInv eth) {bdid : Nat}
    (txLast : eth.txen → bdid = eth.txBdNum - 1 → (⟨val, 0⟩ : EthocBd).Bounded)
    (rxLast : eth.rxen → bdid = ethocBdCount - 1 → (⟨val, 0⟩ : EthocBd).Bounded) :
    EthocInv (eth.setData bdid val) := by
  refine ⟨inv.split, fun txen => ⟨(inv.tx txen).1, ?_⟩, fun rxen => ⟨(inv.rx rxen).1, ?_⟩⟩
  · show ((eth.setData bdid val).bdbuf (eth.txBdNum - 1)).Bounded
    by_cases here : eth.txBdNum - 1 = bdid
    · rw [here, setData_self]
      exact txLast txen here.symm
    · rw [setData_of_ne eth val here]
      exact (inv.tx txen).2
  · by_cases here : ethocBdCount - 1 = bdid
    · rw [here, setData_self]
      exact rxLast rxen here.symm
    · rw [setData_of_ne eth val here]
      exact (inv.rx rxen).2

omit dma answers in
theorem EthocInv.setPtr (inv : EthocInv eth) (bdid : Nat) (val : BitVec 32) :
    EthocInv (eth.setPtr bdid val) := by
  have data (index : Nat) : ((eth.setPtr bdid val).bdbuf index).data = (eth.bdbuf index).data := by
    by_cases here : index = bdid
    · rw [here]
      show (Function.update eth.bdbuf bdid { eth.bdbuf bdid with ptr := val } bdid).data = _
      rw [Function.update_self]
    · exact congrArg EthocBd.data (Function.update_of_ne here ..)
  have bounded (index : Nat) (was : (eth.bdbuf index).Bounded) : ((eth.setPtr bdid val).bdbuf index).Bounded := by
    rw [EthocBd.Bounded, data]
    exact was
  exact ⟨inv.split, fun txen => ⟨(inv.tx txen).1, bounded _ (inv.tx txen).2⟩,
    fun rxen => ⟨(inv.rx rxen).1, bounded _ (inv.rx rxen).2⟩⟩

omit dma answers in
theorem EthocInv.setPlain (inv : EthocInv eth) (reg : EthocPlain) (val : BitVec 32) :
    EthocInv (eth.setPlain reg val) := ⟨inv.split, inv.tx, inv.rx⟩

omit answers in
theorem ethocInput_keeps (inv : EthocInv eth) (input : EthocInput) (ok : EthocOk eth input) :
    Triple EthocEvent.Indexed (· = eth) (input.run dma) fun _ => EthocInv := by
  cases input with
  | feedRx size =>
    refine .known (FedFrom.refl inv) (.bind (ethocFeedRx_keeps dma eth size) fun _ => .pure fun _ fed => fed.inv)
  | reset =>
    have split : 0x40 ≤ ethocBdCount := by decide
    have txOff : ¬ (ethocModerPad ||| ethocModerCrcen) &&& ethocModerTxen ≠ 0 := by decide
    have rxOff : ¬ (ethocModerPad ||| ethocModerCrcen) &&& ethocModerRxen ≠ 0 := by decide
    exact .known inv (.modify fun _ _ => ⟨split, fun txen => absurd txen txOff, fun rxen => absurd rxen rxOff⟩)
  | write offset val answers =>
    dsimp only [EthocOk] at ok
    dsimp only [EthocInput.run]
    cases reg : ethocReg offset with
    | moder =>
      rw [reg] at ok
      exact ethocWriteModer_keeps dma answers inv val ok.1 ok.2
    | txBdNum =>
      rw [reg] at ok
      refine .modify fun now same => ?_
      subst same
      exact ⟨Nat.min_le_right .., fun txen => absurd txen ok.1, fun rxen => absurd rxen ok.2⟩
    | bdData bdid =>
      rw [reg] at ok
      exact .step (.known (inv.setData ok.1 ok.2) (ethocPokeTx_keeps dma answers bdid))
    | bdPtr bdid => exact .step (.known (inv.setPtr bdid val) (ethocPokeTx_keeps dma answers bdid))
    | intSrc => exact .known inv (.modify fun _ kept => kept.withIntSrc _)
    | intMask =>
      have masked : EthocInv { eth with intMask := val } := ⟨inv.split, inv.tx, inv.rx⟩
      refine .step (.known masked (.get fun now kept => .ite (fun _ => ?_) fun _ => ?_))
      · exact .known kept (.emit trivial)
      · exact .known kept (.pure fun _ kept => kept)
    | packetlen => exact .known inv (.modify fun _ kept => ⟨kept.split, kept.tx, kept.rx⟩)
    | miicommand =>
      refine .known inv (.modify fun _ kept => ?_)
      split
      · split
        · exact kept.setPlain ..
        · exact kept.setPlain ..
      · exact kept
    | plain which => cases which <;> exact .known inv (.modify fun _ kept => kept.setPlain ..)
    | unmapped => exact .known inv (.pure fun _ kept => kept)

end Window

theorem ethocInit_inv : EthocInv ethocInit :=
  ⟨Nat.zero_le _, fun txen => absurd rfl txen, nofun⟩

/-- In a run from creation whose steps are all in order, every descriptor is indexed inside the table, and
taken from the part of the ring that takes it. -/
theorem descriptors_indexed (dma : BitVec 32 → Nat → Bool) (inputs : List EthocInput)
    (admitted : AllSteps (ethocStep dma) EthocOk ethocInit inputs) :
    AllSteps (ethocStep dma) (fun eth input => ∀ event ∈ (input.run dma).events eth, event.Indexed)
      ethocInit inputs := by
  refine AllSteps.entails (fun eth input inv ok => ?_) (fun eth input inv ok => ?_) ethocInit_inv admitted
  · exact (ethocInput_keeps dma inv input ok eth rfl).1
  · exact (ethocInput_keeps dma inv input ok eth rfl).2

/-- One transmit descriptor, which is ready and wraps, and two for reception, the second of which wraps: the
third frame is received into the first of them again. -/
theorem descriptors_indexed_rings :
    let dma : BitVec 32 → Nat → Bool := fun _ _ => true
    let answers : Nat → TapAnswer := fun _ => ⟨[], true⟩
    let inputs : List EthocInput := [.write 0x18 0x600 answers, .write 0x20 1 answers, .write 0x400 0xA000 answers,
      .write 0x408 0x8000 answers, .write 0x410 0xA000 answers, .write 0x0 0x3 answers, .feedRx 60, .feedRx 60,
      .write 0x408 0x8000 answers]
    EthocEvent.access .rx 1 true 1 ∈
        ((EthocInput.feedRx 60).run dma).events (final (ethocStep dma) ethocInit inputs) ∧
      AllSteps (ethocStep dma) (fun eth input => ∀ event ∈ (input.run dma).events eth, event.Indexed)
        ethocInit (inputs ++ [.feedRx 60]) := by
  intro dma answers inputs
  have admitted : AllSteps (ethocStep dma) EthocOk ethocInit (inputs ++ [.feedRx 60]) := by decide +kernel
  exact ⟨by decide +kernel, descriptors_indexed dma _ admitted⟩

/-- Without a wrap at its end, the receive ring goes on past the table. And with one descriptor for
transmission the second is sent as well. -/
theorem rings_overrun :
    let dma : BitVec 32 → Nat → Bool := fun _ _ => true
    let answers : Nat → TapAnswer := fun _ => ⟨[], true⟩
    let receiving := final (ethocStep dma) ethocInit [.write 0x18 0x600 answers, .write 0x20 0x7F answers,
      .write 0x7F8 0x8000 answers, .write 0x0 0x1 answers, .feedRx 60]
    let sending := final (ethocStep dma) ethocInit [.write 0x20 1 answers, .write 0x400 0x8000 answers,
      .write 0x408 0x8000 answers]
    EthocEvent.access .rx ethocBdCount false 0x7F ∈ ((EthocInput.feedRx 60).run dma).events receiving ∧
      EthocEvent.access .tx 1 true 1 ∈ ((EthocInput.write 0x0 0x2 answers).run dma).events sending := by
  decide +kernel

end Rvvm.Ethoc
