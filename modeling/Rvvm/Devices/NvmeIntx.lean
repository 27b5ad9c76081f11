import Rvvm.Devices.NvmeQueues

/-! The controller's INTx line. All completion queues share it, yet every doorbell and every mask
write sets it by looking at some of them only. -/
namespace Rvvm.Nvme
open Bool List Option Runs

def Raises (dev : NvmeDev) (k : QueueId) : Prop :=
  (dev.cq k).irqEnabled = true ∧ vecBit dev.irqMask (dev.cq k).irqVec = false

def Idle (dev : NvmeDev) (k : QueueId) : Prop := (dev.cq k).head = (dev.cq k).tail

def Signals (dev : NvmeDev) (k : QueueId) : Prop := Raises dev k ∧ ¬ Idle dev k

def OnVector (dev : NvmeDev) (val : Reg) (k : QueueId) : Prop := vecBit val (dev.cq k).irqVec = true

variable {σ : Type} (ctrl : Pci.Intc σ)

def intxLevel (bus : Pci.PciBus σ) (addr : Nat) : Bool :=
  match bus.funcs addr with
  | none => false
  | some func => ctrl.level bus.intc (Pci.pciFuncIntxIrq bus addr func)

/-- The line is asserted exactly when a completion queue signals. -/
def LevelRight (c : Controller σ) : Prop := intxLevel ctrl c.bus c.addr = true ↔ ∃ k, Signals c.dev k

/-- The function has a pin and uses it: messages are disabled, and INTx is not. -/
def IntxOnly (bus : Pci.PciBus σ) (addr : Nat) : Prop :=
  ∃ func, bus.funcs addr = some func ∧ func.irqPin ≠ 0 ∧ func.intxDisabled = false ∧
    func.msiEnabled = false ∧ func.msixEnabled = false ∧ ctrl.valid (Pci.pciFuncIntxIrq bus addr func)

/-! What a step must find for the line to stay right. -/

/-- A completion finds a free slot, and that slot in RAM. -/
def CompletionOk (c : Controller σ) (cqId : Reg) : Prop :=
  ∀ k, nvmeGetQueue cqId.toNat = some k → Raises c.dev k →
    (c.dev.cq k).head ≠ (nvmeQueueEnqueue (c.dev.cq k)).2.tail ∧
      (c.dmaPtr (nvmeQueueAddr (c.dev.cq k) + ((c.dev.cq k).tail <<< 4).setWidth 64) 16).isSome

/-- A queue that is emptied is the last that signals, and one that has been empty is not filled. -/
def DoorbellOk (dev : NvmeDev) (k : QueueId) (val : Reg) : Prop :=
  if (dev.cq k).tail = val then ∀ r, r ≠ k → ¬ Signals dev r
  else Raises dev k → Idle dev k → ∃ r, r ≠ k ∧ Signals dev r

/-- While the line is up, an idle queue has its vector masked exactly if no queue is left that
signals. -/
def MaskOk (dev : NvmeDev) (val : Reg) : Prop :=
  (∃ k, Signals dev k) →
    ((∃ k, OnVector dev val k ∧ Idle dev k) ↔ ¬ ∃ k, Signals dev k ∧ ¬ OnVector dev val k)

/-- Behind every idle queue whose vector is unmasked there is one that raises the line again, if
any signals. -/
def UnmaskOk (dev : NvmeDev) (val : Reg) : Prop :=
  (∃ k, Signals { dev with irqMask := dev.irqMask &&& ~~~ val } k) →
    ∀ k, OnVector dev val k → Idle dev k →
      ∃ r, k < r ∧ OnVector dev val r ∧ (dev.cq r).irqEnabled = true ∧ ¬ Idle dev r

/-- A command that creates or deletes a completion queue does so while no other signals, or its
own completion raises the line again. -/
def AdminOk (c : Controller σ) (cmd : NvmeCmd) : Prop :=
  ((c.machine.host cmd.sqe).toNat ≠ 0x0C → CompletionOk c cmd.cqId) ∧
    ∀ k, k ≠ 0 → (c.machine.host cmd.sqe).toNat = 0x04 ∨ (c.machine.host cmd.sqe).toNat = 0x05 →
      nvmeGetQueue (cdw10 c cmd).toNat = some k → (∃ r, r ≠ k ∧ Signals c.dev r) → Raises c.dev 0

def LevelOk (c : Controller σ) : NvmeEvent → Prop
  | .pciWrite offset val =>
    (0x1000 ≤ offset → (offset - 0x1000) / 4 % 2 = 1 →
      ∀ k, nvmeGetQueue ((offset - 0x1000) / 4 / 2) = some k →
        DoorbellOk c.dev k ((val.setWidth 16).setWidth 32)) ∧
    (offset = 0x0C → MaskOk c.dev val) ∧ (offset = 0x10 → UnmaskOk c.dev val)
  | .drainSq q _ => q = 0 → ∀ cmd, nextAdminCmd c = some cmd → AdminOk c cmd
  | .cmdWorker i _ => ∀ worker, c.dev.threads[i]? = some worker →
      ∀ cmd, cmdAt c worker.queue worker.head = some cmd → CompletionOk c cmd.cqId
  | _ => True

section Line
variable {ctrl} {bus : Pci.PciBus σ} {addr : Nat}

theorem pciRaiseIrq_intx (only : IntxOnly ctrl bus addr) (vec : Nat) :
    IntxOnly ctrl (Pci.pciRaiseIrq ctrl bus addr vec) addr ∧
      intxLevel ctrl (Pci.pciRaiseIrq ctrl bus addr vec) addr = true := by
  obtain ⟨func, attached, pin, enabled, msi, msix, valid⟩ := only
  have raised : Pci.pciRaiseIrq ctrl bus addr vec =
      { bus.setFunc addr { func with status := Pci.pciStatusIntx } with
        intc := ctrl.raise bus.intc (Pci.pciFuncIntxIrq bus addr func) } := by
    simp [Pci.pciRaiseIrq, attached, Pci.pciFuncSendMsixIrq, Pci.pciFuncSendMsiIrq, msi, msix,
      Pci.pciFuncSendIntxIrq, enabled, pin]
  rw [raised]
  refine ⟨⟨{ func with status := Pci.pciStatusIntx }, Function.update_self .., pin, enabled, msi, msix, valid⟩, ?_⟩
  unfold intxLevel Pci.PciBus.setFunc
  dsimp only
  rw [Function.update_self]
  dsimp only [Pci.Intc.raise]
  rw [ctrl.level_setIrq _ _ _ valid]
  exact Function.update_self ..

theorem pciLowerIrq_intx (only : IntxOnly ctrl bus addr) (vec : Nat) :
    IntxOnly ctrl (Pci.pciLowerIrq ctrl bus addr vec) addr ∧
      intxLevel ctrl (Pci.pciLowerIrq ctrl bus addr vec) addr = false ∧
      ((Pci.pciLowerIrq ctrl bus addr vec).funcs addr).map Pci.PciFunc.command =
        (bus.funcs addr).map Pci.PciFunc.command := by
  obtain ⟨func, attached, pin, enabled, msi, msix, valid⟩ := only
  have lowered : Pci.pciLowerIrq ctrl bus addr vec = Pci.pciFuncLowerIntxIrq ctrl bus addr func := by
    simp [Pci.pciLowerIrq, attached, Pci.pciFuncLowerMsixIrq, Pci.pciFuncLowerMsiIrq, msi, msix]
  have now : (Pci.pciFuncLowerIntxIrq ctrl bus addr func).funcs addr = some { func with status := 0 } :=
    Function.update_self ..
  rw [lowered, now, attached]
  refine ⟨⟨{ func with status := 0 }, now, pin, enabled, msi, msix, valid⟩, ?_, rfl⟩
  unfold intxLevel
  rw [now]
  dsimp only [Pci.pciFuncLowerIntxIrq, Pci.Intc.lower]
  rw [ctrl.level_setIrq _ _ _ valid]
  exact Function.update_self ..

variable {c : Controller σ}

/-- The pin is all there is, and the line has a level. -/
structure Line (ctrl : Pci.Intc σ) (c : Controller σ) (level : Bool) : Prop where
  only : IntxOnly ctrl c.bus c.addr
  level : intxLevel ctrl c.bus c.addr = level

theorem nvmeQueueRaiseIrq_line {level : Bool} (line : Line ctrl c level) (k : QueueId) :
    (Raises c.dev k → Line ctrl (nvmeQueueRaiseIrq ctrl c (c.dev.cq k)) true) ∧
      (¬ Raises c.dev k → Line ctrl (nvmeQueueRaiseIrq ctrl c (c.dev.cq k)) level) := by
  unfold nvmeQueueRaiseIrq Raises
  constructor
  · rintro ⟨enabled, unmasked⟩
    rw [enabled, unmasked]
    exact ⟨(pciRaiseIrq_intx line.only _).1, (pciRaiseIrq_intx line.only _).2⟩
  · intro silent
    rw [if_neg (by simpa using silent)]
    exact line

theorem nvmeQueueLowerIrq_line {level : Bool} (line : Line ctrl c level) (queue : NvmeQueue) :
    Line ctrl (nvmeQueueLowerIrq ctrl c queue) false :=
  ⟨(pciLowerIrq_intx line.only queue.irqVec).1, (pciLowerIrq_intx line.only queue.irqVec).2.1⟩

end Line

section Completions
variable {ctrl} {c : Controller σ}

theorem raises_setCq_iff {k : QueueId} {queue : NvmeQueue} (data : queue.data = (c.dev.cq k).data) :
    Raises (c.setCq k queue).dev k ↔ Raises c.dev k := by
  unfold Raises NvmeQueue.irqEnabled NvmeQueue.irqVec
  rw [setCq_self, data]
  rfl

theorem signals_setCq_of_ne (k : QueueId) (queue : NvmeQueue) {r : QueueId} (apart : r ≠ k) :
    Signals (c.setCq k queue).dev r ↔ Signals c.dev r := by
  unfold Signals Raises Idle
  rw [setCq_of_ne c apart]
  rfl

theorem exists_signals_iff (dev : NvmeDev) (k : QueueId) :
    (∃ r, Signals dev r) ↔ (∃ r, r ≠ k ∧ Signals dev r) ∨ Signals dev k := by
  constructor
  · rintro ⟨r, signal⟩
    by_cases same : r = k
    · exact .inr (same ▸ signal)
    · exact .inl ⟨r, same, signal⟩
  · rintro (⟨r, -, signal⟩ | signal)
    · exact ⟨r, signal⟩
    · exact ⟨k, signal⟩

theorem exists_signals_setCq_iff (c : Controller σ) (k : QueueId) (queue : NvmeQueue) :
    (∃ r, Signals (c.setCq k queue).dev r) ↔
      (∃ r, r ≠ k ∧ Signals c.dev r) ∨ Signals (c.setCq k queue).dev k := by
  rw [exists_signals_iff _ k]
  exact or_congr_left (exists_congr fun r => and_congr_right fun apart => signals_setCq_of_ne k queue apart)

theorem nvmePostCqe_line {level : Bool} (line : Line ctrl c level) (cmd : NvmeCmd) (k : QueueId)
    (tail status cs : Reg) :
    (¬ Raises c.dev k → Line ctrl (nvmePostCqe ctrl c cmd k tail status cs) level) ∧
      (Raises c.dev k → (c.dmaPtr (nvmeQueueAddr (c.dev.cq k) + (tail <<< 4).setWidth 64) 16).isSome →
        Line ctrl (nvmePostCqe ctrl c cmd k tail status cs) true) := by
  unfold nvmePostCqe
  dsimp only
  split
  next unmapped => exact ⟨fun _ => line, fun _ mapped => absurd mapped (by simp [unmapped])⟩
  next cqe found =>
    have posted (host : HostMem) : Line ctrl (c.setHost host) level := ⟨line.only, line.level⟩
    refine ⟨fun silent => ?_, fun raises _ => ?_⟩
    · exact (nvmeQueueRaiseIrq_line (posted _) k).2 silent
    · exact (nvmeQueueRaiseIrq_line (posted _) k).1 raises

theorem nvmeCompleteCmdCs_right {level : Bool} (line : Line ctrl c level) (cmd : NvmeCmd) (status : StatusCode)
    (cs : Reg) (ok : CompletionOk c cmd.cqId)
    (before : LevelRight ctrl c ∨ ∃ k, nvmeGetQueue cmd.cqId.toNat = some k ∧ Raises c.dev k) :
    IntxOnly ctrl (nvmeCompleteCmdCs ctrl c cmd status cs).bus (nvmeCompleteCmdCs ctrl c cmd status cs).addr ∧
      LevelRight ctrl (nvmeCompleteCmdCs ctrl c cmd status cs) := by
  cases named : nvmeGetQueue cmd.cqId.toNat with
  | none =>
    have same : nvmeCompleteCmdCs ctrl c cmd status cs = c := by
      rw [nvmeCompleteCmdCs, named]
    rw [same]
    refine ⟨line.only, before.resolve_right ?_⟩
    rintro ⟨k, found, -⟩
    rw [named] at found
    cases found
  | some k =>
    have result : nvmeCompleteCmdCs ctrl c cmd status cs = nvmePostCqe ctrl
        (c.setCq k (nvmeQueueEnqueue (c.dev.cq k)).2) cmd k (c.dev.cq k).tail status.code cs := by
      rw [nvmeCompleteCmdCs, named]
      rfl
    have claimed : Line ctrl (c.setCq k (nvmeQueueEnqueue (c.dev.cq k)).2) level := ⟨line.only, line.level⟩
    have post := nvmePostCqe_line claimed cmd k (c.dev.cq k).tail status.code cs
    have raises : Raises (c.setCq k (nvmeQueueEnqueue (c.dev.cq k)).2).dev k ↔ Raises c.dev k :=
      raises_setCq_iff rfl
    rw [result]
    unfold LevelRight
    rw [nvmePostCqe_dev]
    by_cases loud : Raises c.dev k
    · obtain ⟨room, mapped⟩ := ok k named loud
      have up := post.2 (raises.mpr loud) (by rw [setCq_self]; exact mapped)
      refine ⟨up.only, iff_of_true up.level ⟨k, raises.mpr loud, ?_⟩⟩
      unfold Idle
      rw [setCq_self]
      exact room
    · have kept := post.1 (mt raises.mp loud)
      refine ⟨kept.only, ?_⟩
      have right : LevelRight ctrl c := before.resolve_right (by simp [named, loud])
      unfold LevelRight at right
      rw [kept.level, ← line.level, right, exists_signals_setCq_iff, exists_signals_iff c.dev k]
      exact or_congr_right (iff_of_false (fun signal => loud signal.1) fun signal => loud (raises.mp signal.1))

end Completions

section Masks

def flag {α : Type} (sets clears : α → Bool) (b : Bool) (a : α) : Bool := !clears a && (sets a || b)

section Flag
variable {α : Type} {sets clears : α → Bool}

theorem foldl_flag_of_silent (as : List α) (silent : ∀ a ∈ as, sets a = false) (b : Bool) :
    as.foldl (flag sets clears) b = true ↔ b = true ∧ ∀ a ∈ as, clears a = false := by
  induction as generalizing b with
  | nil => simp
  | cons a as ih =>
    rw [foldl_cons, ih (fun r later => silent r (mem_cons_of_mem a later)), forall_mem_cons]
    simp only [flag, silent a mem_cons_self, Bool.false_or, and_eq_true, not_eq_true']
    tauto

/-- The flag is set in the end if whatever clears it comes before something that sets it. -/
theorem foldl_flag_of_set [Preorder α] {as : List α} (sorted : as.Pairwise (· < ·)) {b : Bool}
    (start : b = true ∨ ∃ a ∈ as, sets a = true ∧ clears a = false)
    (again : ∀ a ∈ as, clears a = true → ∃ r ∈ as, a < r ∧ sets r = true ∧ clears r = false) :
    as.foldl (flag sets clears) b = true := by
  induction as generalizing b with
  | nil => simpa using start
  | cons a as ih =>
    rw [pairwise_cons] at sorted
    have later (x : α) (here : x ∈ as) (clear : clears x = true) :
        ∃ r ∈ as, x < r ∧ sets r = true ∧ clears r = false := by
      obtain ⟨r, found, after, set⟩ := again x (mem_cons_of_mem a here) clear
      rcases mem_cons.mp found with rfl | found
      · exact absurd (lt_trans (sorted.1 x here) after) (lt_irrefl r)
      · exact ⟨r, found, after, set⟩
    refine ih sorted.2 ?_ later
    cases clear : clears a with
    | true =>
      obtain ⟨r, found, after, set⟩ := again a mem_cons_self clear
      rcases mem_cons.mp found with rfl | found
      · exact absurd after (lt_irrefl r)
      · exact .inr ⟨r, found, set⟩
    | false =>
      rcases start with rfl | ⟨r, found, set⟩
      · exact .inl (by simp [flag, clear])
      · rcases mem_cons.mp found with rfl | found
        · exact .inl (by simp [flag, set])
        · exact .inr ⟨r, found, set⟩

end Flag

variable {ctrl} {c : Controller σ}

instance (dev : NvmeDev) (k : QueueId) : Decidable (Raises dev k) := inferInstanceAs (Decidable (_ ∧ _))

instance (dev : NvmeDev) (k : QueueId) : Decidable (Idle dev k) := inferInstanceAs (Decidable (_ = _))

instance (dev : NvmeDev) (k : QueueId) : Decidable (Signals dev k) := inferInstanceAs (Decidable (_ ∧ _))

instance (dev : NvmeDev) (val : Reg) (k : QueueId) : Decidable (OnVector dev val k) :=
  inferInstanceAs (Decidable (_ = _))

/-- The rounds over the queues set the line where one signals and clear it where one is idle. -/
theorem foldl_nvmeCheckMaskedIrq_line (mask : Reg) (qs : List QueueId) {level : Bool} (line : Line ctrl c level) :
    Line ctrl (qs.foldl (nvmeCheckMaskedIrq ctrl mask) c)
      (qs.foldl (flag (fun k => decide (OnVector c.dev mask k ∧ Signals c.dev k))
        (fun k => decide (OnVector c.dev mask k ∧ Idle c.dev k))) level) := by
  induction qs generalizing c level with
  | nil => exact line
  | cons k qs ih =>
    have round : Line ctrl (nvmeCheckMaskedIrq ctrl mask c k)
        (flag (fun k => decide (OnVector c.dev mask k ∧ Signals c.dev k))
          (fun k => decide (OnVector c.dev mask k ∧ Idle c.dev k)) level k) := by
      unfold nvmeCheckMaskedIrq flag Signals
      by_cases on : OnVector c.dev mask k
      · have vector : vecBit mask (c.dev.cq k).irqVec = true := on
        rw [if_pos vector]
        by_cases idle : Idle c.dev k
        · have empty : ¬ (c.dev.cq k).head ≠ (c.dev.cq k).tail := not_not.mpr idle
          rw [if_neg empty]
          simpa [on, idle] using nvmeQueueLowerIrq_line line (c.dev.cq k)
        · have filled : (c.dev.cq k).head ≠ (c.dev.cq k).tail := idle
          rw [if_pos filled]
          by_cases loud : Raises c.dev k
          · simpa [on, idle, loud] using (nvmeQueueRaiseIrq_line line k).1 loud
          · simpa [on, idle, loud] using (nvmeQueueRaiseIrq_line line k).2 loud
      · have vector : ¬ vecBit mask (c.dev.cq k).irqVec = true := on
        rw [if_neg vector]
        simpa [on] using line
    have rest := ih round
    rw [nvmeCheckMaskedIrq_dev] at rest
    exact rest

/-- The pin is in use, the admin queues belong together, and the line is right. -/
structure Good (ctrl : Pci.Intc σ) (c : Controller σ) : Prop where
  only : IntxOnly ctrl c.bus c.addr
  admin : (c.dev.sq 0).data = 0
  right : LevelRight ctrl c

theorem Good.line (good : Good ctrl c) : Line ctrl c (intxLevel ctrl c.bus c.addr) := ⟨good.only, rfl⟩

theorem mask_good (good : Good ctrl c) (val : Reg) (ok : MaskOk c.dev val) :
    Good ctrl
      (nvmeCheckMaskedIrqs ctrl { c with dev := { c.dev with irqMask := c.dev.irqMask ||| val } } val) := by
  let masked : Controller σ := { c with dev := { c.dev with irqMask := c.dev.irqMask ||| val } }
  have start : Line ctrl masked (intxLevel ctrl c.bus c.addr) := ⟨good.only, rfl⟩
  have line := foldl_nvmeCheckMaskedIrq_line val (finRange 17) start
  have signals (k : QueueId) : Signals masked.dev k ↔ Signals c.dev k ∧ ¬ OnVector c.dev val k := by
    have bit : vecBit (c.dev.irqMask ||| val) (c.dev.cq k).irqVec =
        (vecBit c.dev.irqMask (c.dev.cq k).irqVec || vecBit val (c.dev.cq k).irqVec) := BitVec.getLsbD_or
    simp only [Signals, Raises, Idle, OnVector, masked, bit, or_eq_false_iff, not_eq_true]
    tauto
  refine ⟨line.only, ?_, ?_⟩
  · rw [nvmeCheckMaskedIrqs_dev]
    exact good.admin
  · have quiet : ∀ k ∈ finRange 17, decide (OnVector masked.dev val k ∧ Signals masked.dev k) = false := by
      intro k _
      rw [decide_eq_false_iff_not, signals]
      exact fun both => both.2.2 both.1
    have idle : (∀ k ∈ finRange 17, decide (OnVector masked.dev val k ∧ Idle masked.dev k) = false) ↔
        ¬ ∃ k, OnVector c.dev val k ∧ Idle c.dev k := by
      simp only [mem_finRange, forall_const, decide_eq_false_iff_not, not_exists]
      exact Iff.rfl
    have right : intxLevel ctrl c.bus c.addr = true ↔ ∃ k, Signals c.dev k := good.right
    unfold LevelRight
    rw [nvmeCheckMaskedIrqs_dev, nvmeCheckMaskedIrqs, line.level, foldl_flag_of_silent _ quiet, right, idle]
    refine Iff.trans ?_ (exists_congr signals).symm
    constructor
    · rintro ⟨any, filled⟩
      exact not_not.mp (mt (ok any).mpr filled)
    · rintro ⟨k, signal, off⟩
      exact ⟨⟨k, signal⟩, fun lowers => (ok ⟨k, signal⟩).mp lowers ⟨k, signal, off⟩⟩

theorem unmask_good (good : Good ctrl c) (val : Reg) (ok : UnmaskOk c.dev val) :
    Good ctrl
      (nvmeCheckMaskedIrqs ctrl { c with dev := { c.dev with irqMask := c.dev.irqMask &&& ~~~ val } } val) := by
  let opened : Controller σ := { c with dev := { c.dev with irqMask := c.dev.irqMask &&& ~~~ val } }
  have start : Line ctrl opened (intxLevel ctrl c.bus c.addr) := ⟨good.only, rfl⟩
  have line := foldl_nvmeCheckMaskedIrq_line val (finRange 17) start
  have raises (k : QueueId) : Raises opened.dev k ↔
      Raises c.dev k ∨ (c.dev.cq k).irqEnabled = true ∧ OnVector c.dev val k := by
    have bit : vecBit (c.dev.irqMask &&& ~~~ val) (c.dev.cq k).irqVec =
        (vecBit c.dev.irqMask (c.dev.cq k).irqVec && !vecBit val (c.dev.cq k).irqVec) := by
      have small : (c.dev.cq k).irqVec % 32 < 32 := Nat.mod_lt _ (by decide)
      simp [vecBit, small]
    simp only [Raises, OnVector, opened, bit, and_eq_false_iff, not_eq_false']
    tauto
  have right : intxLevel ctrl c.bus c.addr = true ↔ ∃ k, Signals c.dev k := good.right
  refine ⟨line.only, ?_, ?_⟩
  · rw [nvmeCheckMaskedIrqs_dev]
    exact good.admin
  · unfold LevelRight
    rw [nvmeCheckMaskedIrqs_dev, nvmeCheckMaskedIrqs, line.level]
    by_cases any : ∃ k, Signals opened.dev k
    · refine iff_of_true (foldl_flag_of_set (pairwise_lt_finRange 17) ?_ ?_) any
      · obtain ⟨k, loud, filled⟩ := any
        by_cases on : OnVector c.dev val k
        · exact .inr ⟨k, mem_finRange k, decide_eq_true ⟨on, loud, filled⟩,
            decide_eq_false fun clears => filled clears.2⟩
        · exact .inl (right.mpr ⟨k, ((raises k).mp loud).resolve_right fun both => on both.2, filled⟩)
      · intro k _ clears
        obtain ⟨on, idle⟩ := of_decide_eq_true clears
        obtain ⟨r, after, on, enabled, filled⟩ := ok any k on idle
        exact ⟨r, mem_finRange r, after, decide_eq_true ⟨on, (raises r).mpr (.inr ⟨enabled, on⟩), filled⟩,
          decide_eq_false fun clears => filled clears.2⟩
    · refine iff_of_false ?_ any
      have quiet : ∀ k ∈ finRange 17, decide (OnVector opened.dev val k ∧ Signals opened.dev k) = false :=
        fun k _ => decide_eq_false fun sets => any ⟨k, sets.2⟩
      rw [foldl_flag_of_silent _ quiet, right]
      rintro ⟨⟨k, loud, filled⟩, -⟩
      exact any ⟨k, (raises k).mpr (.inl loud), filled⟩

end Masks

section Steps
variable {ctrl} {c : Controller σ}

theorem Good.of_same {c' : Controller σ} (good : Good ctrl c) (cq : c'.dev.cq = c.dev.cq)
    (irqMask : c'.dev.irqMask = c.dev.irqMask) (bus : c'.bus = c.bus) (addr : c'.addr = c.addr)
    (admin : (c'.dev.sq 0).data = (c.dev.sq 0).data) : Good ctrl c' where
  only := by rw [bus, addr]; exact good.only
  admin := admin.trans good.admin
  right := by
    unfold LevelRight Signals Raises Idle
    rw [bus, addr, cq, irqMask]
    exact good.right

theorem doorbell_good (good : Good ctrl c) (doorbell : Nat) (val : BitVec 16)
    (ok : doorbell % 2 = 1 → ∀ k, nvmeGetQueue (doorbell / 2) = some k → DoorbellOk c.dev k (val.setWidth 32)) :
    Good ctrl (nvmeDoorbell ctrl c doorbell val) := by
  unfold nvmeDoorbell
  split
  · exact good
  next k named =>
    split
    next odd =>
      have allowed := ok odd k named
      let cq : NvmeQueue := { c.dev.cq k with head := val.setWidth 32 }
      have written : Line ctrl (c.setCq k cq) (intxLevel ctrl c.bus c.addr) := ⟨good.only, rfl⟩
      have idle : Idle (c.setCq k cq).dev k ↔ (c.dev.cq k).tail = val.setWidth 32 := by
        unfold Idle
        rw [setCq_self]
        exact eq_comm
      have raises : Raises (c.setCq k cq).dev k ↔ Raises c.dev k := raises_setCq_iff rfl
      have right : intxLevel ctrl c.bus c.addr = true ↔ ∃ k, Signals c.dev k := good.right
      unfold DoorbellOk at allowed
      dsimp only
      split
      next emptied =>
        rw [if_pos emptied] at allowed
        have line := nvmeQueueLowerIrq_line written cq
        refine ⟨line.only, good.admin, iff_of_false (by rw [line.level]; decide) ?_⟩
        rw [nvmeQueueLowerIrq_dev, exists_signals_setCq_iff]
        rintro (⟨r, apart, signal⟩ | signal)
        · exact allowed r apart signal
        · exact signal.2 (idle.mpr emptied)
      next filled =>
        rw [if_neg filled] at allowed
        refine ⟨written.only, good.admin, ?_⟩
        unfold LevelRight
        rw [written.level, right, exists_signals_setCq_iff, exists_signals_iff c.dev k]
        have signals : Signals (c.setCq k cq).dev k ↔ Raises c.dev k :=
          (and_iff_left (mt idle.mp filled)).trans raises
        rw [signals]
        constructor
        · exact Or.imp_right And.left
        · rintro (others | loud)
          · exact .inl others
          · by_cases was : Idle c.dev k
            · exact .inl (allowed loud was)
            · exact .inr ⟨loud, was⟩
    next even =>
      refine good.of_same rfl rfl rfl rfl ?_
      by_cases zero : 0 = k
      · subst zero
        rw [setSq_self]
      · rw [setSq_of_ne c zero]

theorem complete_good {level : Bool} (line : Line ctrl c level) (admin : (c.dev.sq 0).data = 0) (cmd : NvmeCmd)
    (status : StatusCode) (cs : Reg) (ok : CompletionOk c cmd.cqId)
    (before : LevelRight ctrl c ∨ ∃ k, nvmeGetQueue cmd.cqId.toNat = some k ∧ Raises c.dev k) :
    Good ctrl (nvmeCompleteCmdCs ctrl c cmd status cs) := by
  obtain ⟨only, right⟩ := nvmeCompleteCmdCs_right line cmd status cs ok before
  refine ⟨only, ?_, right⟩
  rw [nvmeCompleteCmdCs_dev]
  split <;> exact admin

theorem nvmeQueueLowerIrq_dmaPtr (only : IntxOnly ctrl c.bus c.addr) (queue : NvmeQueue) (addr : Addr)
    (size : Nat) :
    (nvmeQueueLowerIrq ctrl c queue).dmaPtr addr size = c.dmaPtr addr size := by
  have commands (c : Controller σ) : c.dmaPtr addr size =
      ((c.bus.funcs c.addr).map Pci.PciFunc.command).bind fun command =>
        pciGetDmaPtr ⟨c.machine, command⟩ addr size := by
    rw [bind_map]
    rfl
  have same : ((nvmeQueueLowerIrq ctrl c queue).bus.funcs (nvmeQueueLowerIrq ctrl c queue).addr).map
      Pci.PciFunc.command = (c.bus.funcs c.addr).map Pci.PciFunc.command :=
        (pciLowerIrq_intx only queue.irqVec).2.2
  rw [commands, commands, same]
  rfl

theorem transfer_dmaPtr (c : Controller σ) (after : Transferred) (addr : Addr) (size : Nat) :
    (c.transfer after).dmaPtr addr size = c.dmaPtr addr size := by
  unfold Controller.dmaPtr pciGetDmaPtr rvvmGetDmaPtr
  simp only [apply_ite Prod.fst]
  rfl

section
variable (good : Good ctrl c)
include good

theorem transfer_good (after : Transferred) (cmd : NvmeCmd) (status : StatusCode) (cs : Reg)
    (ok : CompletionOk c cmd.cqId) : Good ctrl (nvmeCompleteCmdCs ctrl (c.transfer after) cmd status cs) := by
  have same : Good ctrl (c.transfer after) := good.of_same rfl rfl rfl rfl rfl
  refine complete_good same.line same.admin cmd status cs ?_ (.inl same.right)
  intro k named loud
  rw [transfer_dmaPtr]
  exact ok k named loud

theorem replaceCq_good {k : QueueId} (io : k ≠ 0) (queue : NvmeQueue)
    (idle : queue.head = queue.tail) {cmd : NvmeCmd} (cqId : cmd.cqId = 0) (status : StatusCode) (cs : Reg)
    (ok : CompletionOk c cmd.cqId) (again : (∃ r, r ≠ k ∧ Signals c.dev r) → Raises c.dev 0) :
    Good ctrl (nvmeCompleteCmdCs ctrl ((nvmeQueueLowerIrq ctrl c (c.dev.cq k)).setCq k queue) cmd status cs) := by
  let lowered := (nvmeQueueLowerIrq ctrl c (c.dev.cq k)).setCq k queue
  have line : Line ctrl lowered false :=
    ⟨(nvmeQueueLowerIrq_line good.line (c.dev.cq k)).only, (nvmeQueueLowerIrq_line good.line (c.dev.cq k)).level⟩
  have zero : lowered.dev.cq 0 = c.dev.cq 0 := setCq_of_ne _ io.symm queue
  have raises : Raises lowered.dev 0 ↔ Raises c.dev 0 := by
    unfold Raises
    rw [zero]
    rfl
  have named : nvmeGetQueue cmd.cqId.toNat = some 0 := by
    rw [cqId]
    rfl
  have signals : (∃ r, Signals lowered.dev r) ↔ ∃ r, r ≠ k ∧ Signals c.dev r := by
    refine (exists_signals_setCq_iff (nvmeQueueLowerIrq ctrl c (c.dev.cq k)) k queue).trans (or_iff_left ?_)
    intro signal
    refine signal.2 ?_
    unfold Idle
    rw [setCq_self]
    exact idle
  refine complete_good line good.admin cmd status cs ?_ ?_
  · intro r found loud
    obtain rfl := some.inj (named.symm.trans found)
    have room := ok 0 named (raises.mp loud)
    rw [zero]
    refine ⟨room.1, ?_⟩
    have mapped := nvmeQueueLowerIrq_dmaPtr good.only (c.dev.cq k)
      (nvmeQueueAddr (c.dev.cq 0) + ((c.dev.cq 0).tail <<< 4).setWidth 64) 16
    exact mapped ▸ room.2
  · by_cases others : ∃ r, r ≠ k ∧ Signals c.dev r
    · exact .inr ⟨0, named, raises.mpr (again others)⟩
    · exact .inl (iff_of_false (by rw [line.level]; decide) (mt signals.mp others))

theorem adminCmd_good {cmd : NvmeCmd} (cqId : cmd.cqId = 0) (after : Transferred)
    (ok : AdminOk c cmd) : Good ctrl (nvmeAdminCmd ctrl c cmd after) := by
  by_cases event : (c.machine.host cmd.sqe).toNat = 0x0C
  · have same : nvmeAdminCmd ctrl c cmd after = c := by
      unfold nvmeAdminCmd
      rw [event]
      rfl
    rw [same]
    exact good
  rcases nvmeAdminCmd_completes ctrl c cmd after with ⟨-, same⟩ | ⟨c', status, cs, effect, result⟩
  · rw [same]
    exact good
  · have completes := ok.1 event
    rw [result]
    cases effect with
    | kept => exact complete_good good.line good.admin cmd status cs completes (.inl good.right)
    | transfer after => exact transfer_good good after cmd status cs completes
    | createSq q k queue io bound active =>
      have same : Good ctrl (c.setSq q queue) :=
        good.of_same rfl rfl rfl rfl (by rw [setSq_of_ne c io.symm])
      exact complete_good same.line same.admin cmd status cs completes (.inl same.right)
    | deleteSq q io =>
      have same : Good ctrl (c.setSq q (nvmeQueueSetup 0 0 0)) :=
        good.of_same rfl rfl rfl rfl (by rw [setSq_of_ne c io.symm])
      exact complete_good same.line same.admin cmd status cs completes (.inl same.right)
    | createCq k queue io opcode named active idle =>
      exact replaceCq_good good io queue idle cqId status cs completes (ok.2 k io (.inr opcode) named)
    | deleteCq k io opcode named =>
      exact replaceCq_good good io _ rfl cqId status cs completes (ok.2 k io (.inl opcode) named)

theorem pciWrite_good (offset : Nat) (val : Reg) (ok : LevelOk c (.pciWrite offset val)) :
    Good ctrl (nvmePciWrite ctrl c offset val) := by
  obtain ⟨doorbell, mask, unmask⟩ := ok
  have sq (c : Controller σ) (good : Good ctrl c) (queue : NvmeQueue) (data : queue.data = (c.dev.sq 0).data) :
      Good ctrl (c.setSq 0 queue) := good.of_same rfl rfl rfl rfl (by rw [setSq_self, data])
  have cq (c : Controller σ) (good : Good ctrl c) (queue : NvmeQueue) (data : queue.data = (c.dev.cq 0).data)
      (idle : queue.head = queue.tail ↔ Idle c.dev 0) : Good ctrl (c.setCq 0 queue) := by
    have right : intxLevel ctrl c.bus c.addr = true ↔ ∃ k, Signals c.dev k := good.right
    have raises : Raises (c.setCq 0 queue).dev 0 ↔ Raises c.dev 0 := raises_setCq_iff data
    refine ⟨good.only, good.admin, right.trans ?_⟩
    rw [exists_signals_setCq_iff, exists_signals_iff c.dev 0, Signals, Signals, raises, ← idle, Idle, setCq_self]
  unfold nvmePciWrite
  split
  next bell => exact doorbell_good good _ _ (doorbell bell)
  next low =>
    split
    · exact mask_good good val (mask rfl)
    · exact unmask_good good val (unmask rfl)
    · exact good.of_same rfl rfl rfl rfl rfl
    · have resized := sq c good { c.dev.sq 0 with size := val &&& 0xFFF#32 } rfl
      exact cq _ resized { c.dev.cq 0 with size := val >>> 16 &&& 0xFFF#32 } rfl Iff.rfl
    · exact sq c good _ rfl
    · exact sq c good _ rfl
    · exact cq c good _ rfl Iff.rfl
    · exact cq c good _ rfl Iff.rfl
    · exact good
end

theorem lowerAll_line (qs : List QueueId) {level : Bool} (line : Line ctrl c level) :
    Line ctrl (qs.foldl (fun c q => nvmeQueueLowerIrq ctrl c (c.dev.cq q)) c) (qs.isEmpty && level) := by
  induction qs generalizing c level with
  | nil => exact line
  | cons q qs ih =>
    have rest := ih (nvmeQueueLowerIrq_line line (c.dev.cq q))
    rw [Bool.and_false] at rest
    exact rest

section
variable (good : Good ctrl c)
include good

theorem reset_good : Good ctrl (nvmeReset ctrl c) := by
  unfold nvmeReset
  split
  · have line := lowerAll_line (finRange 17) good.line
    refine ⟨line.only, good.admin, iff_of_false ?_ ?_⟩
    · rw [line.level]
      exact false_ne_true
    · rintro ⟨k, -, filled⟩
      refine filled ?_
      unfold Idle
      dsimp only
      split <;> rfl
  · exact good

theorem drainSq_good (q : QueueId) (after : Transferred) (ok : LevelOk c (.drainSq q after)) :
    Good ctrl (nvmeDrainSq ctrl c q after) := by
  by_cases zero : q = 0
  · subst zero
    obtain ⟨head, result⟩ := nvmeDrainSq_admin ctrl c after
    have moved : Good ctrl (c.setSq 0 { c.dev.sq 0 with head := head }) :=
      good.of_same rfl rfl rfl rfl (by rw [setSq_self])
    rw [result]
    cases next : nextAdminCmd c with
    | none => exact moved
    | some cmd =>
      have cqId : cmd.cqId = 0 := by
        obtain ⟨entry, -, found⟩ := bind_eq_some_iff.mp next
        obtain ⟨sqe, -, rfl⟩ := map_eq_some_iff.mp found
        exact good.admin
      exact adminCmd_good moved cqId after (ok rfl cmd next)
  · unfold nvmeDrainSq
    split
    · exact good
    next head queue found =>
      rw [dif_pos zero]
      refine good.of_same rfl rfl rfl rfl ?_
      exact congrArg NvmeQueue.data (setSq_of_ne c (Ne.symm zero) queue)

theorem cmdWorker_good (i : Nat) (after : Transferred) (ok : LevelOk c (.cmdWorker i after)) :
    Good ctrl (nvmeCmdWorker ctrl c i after) := by
  unfold nvmeCmdWorker
  split
  · exact good
  next worker found =>
    let rest : Controller σ := { c with dev := { c.dev with threads := c.dev.threads.eraseIdx i } }
    have started : Good ctrl rest := good.of_same rfl rfl rfl rfl rfl
    rw [nvmeRunCmd_eq]
    split
    · exact started
    next cmd entry =>
      have completes : CompletionOk rest cmd.cqId := ok worker found cmd entry
      rw [if_pos worker.io]
      obtain ⟨c', status, kept, result⟩ := nvmeIoCommand_completes ctrl rest cmd after
      rw [result]
      rcases kept with rfl | rfl
      · exact complete_good started.line started.admin cmd status 0 completes (.inl started.right)
      · exact transfer_good started after cmd status 0 completes

theorem step_good (event : NvmeEvent) (ok : LevelOk c event) :
    Good ctrl (nvmeStep ctrl c event) := by
  cases event with
  | pciWrite offset val => exact pciWrite_good good offset val ok
  | drainSq q after => exact drainSq_good good q after ok
  | cmdWorker i after => exact cmdWorker_good good i after ok
  | reset => exact reset_good good
  | outside after => exact good.of_same rfl rfl rfl rfl rfl
end

end Steps

/-- The line is right in every state of a run whose steps take the other queues into account. -/
theorem intx_level_right {σ : Type} (ctrl : Pci.Intc σ) {c : Controller σ} (only : IntxOnly ctrl c.bus c.addr)
    (admin : (c.dev.sq 0).data = 0) (start : LevelRight ctrl c) {events : List NvmeEvent}
    (ok : AllSteps (nvmeStep ctrl) LevelOk c events) :
    ∀ s ∈ visited (nvmeStep ctrl) c events, LevelRight ctrl s := by
  intro s reached
  have good : Good ctrl s :=
    @invariant _ _ _ (Good ctrl) _ (fun _ event good => step_good good event) _ _ ⟨only, admin, start⟩ ok s reached
  exact good.right

/-- An admin command is submitted and completed, and the host takes its entry: the line goes up and
down again. -/
def adminEvents : List NvmeEvent :=
  setupAdmin ++ [.pciWrite 0x1000 1, .drainSq 0 ⟨fun _ => 0, fun _ => 0, emptyBlk⟩, .pciWrite 0x1004 1]

theorem intx_level_right_admin :
    let c := newController fun _ => 0
    (IntxOnly wires c.bus c.addr ∧ (c.dev.sq 0).data = 0 ∧ LevelRight wires c ∧
      AllSteps (nvmeStep wires) LevelOk c adminEvents) ∧
    (visited (nvmeStep wires) c adminEvents).map (fun s => intxLevel wires s.bus s.addr) =
      [false, false, false, false, false, true, false] ∧
    ∀ s ∈ visited (nvmeStep wires) c adminEvents, LevelRight wires s := by
  intro c
  have only : IntxOnly wires c.bus c.addr := ⟨_, rfl, by decide, by decide, by decide, by decide, trivial⟩
  have start : LevelRight wires c := iff_of_false (by decide) (by decide)
  have low {offset : Nat} {p : Prop} (below : offset < 0x1000) : 0x1000 ≤ offset → p :=
    fun high => absurd high (Nat.not_le.mpr below)
  let submitted := final (nvmeStep wires) c (setupAdmin ++ [.pciWrite 0x1000 1])
  let completed := nvmeStep wires submitted (.drainSq 0 ⟨fun _ => 0, fun _ => 0, emptyBlk⟩)
  have own : ∀ cmd ∈ nextAdminCmd submitted, cmd.cqId = 0 := by decide +kernel
  have fits : CompletionOk submitted 0 := by
    have every : ∀ k, nvmeGetQueue 0 = some k → Raises submitted.dev k →
        (submitted.dev.cq k).head ≠ (nvmeQueueEnqueue (submitted.dev.cq k)).2.tail ∧
          (submitted.dmaPtr (nvmeQueueAddr (submitted.dev.cq k) +
            ((submitted.dev.cq k).tail <<< 4).setWidth 64) 16).isSome := by decide +kernel
    exact every
  have idle : ∀ r, ¬ Signals submitted.dev r := by decide +kernel
  have emptied : ∀ k, nvmeGetQueue 0 = some k →
      (completed.dev.cq k).tail = ((1 : Reg).setWidth 16).setWidth 32 ∧
        ∀ r, r ≠ k → ¬ Signals completed.dev r := by decide +kernel
  have ok : AllSteps (nvmeStep wires) LevelOk c adminEvents := by
    refine ⟨⟨low (by decide), nofun, nofun⟩, ⟨low (by decide), nofun, nofun⟩, ⟨low (by decide), nofun, nofun⟩,
      ⟨nofun, nofun, nofun⟩, ?_, ⟨fun _ _ k named => ?_, nofun, nofun⟩, trivial⟩
    · intro _ cmd next
      refine ⟨fun _ => ?_, fun k _ _ _ busy => ?_⟩
      · rw [own cmd next]
        exact fits
      · obtain ⟨r, -, signals⟩ := busy
        exact absurd signals (idle r)
    · exact (if_pos (emptied k named).1).mpr (emptied k named).2
  exact ⟨⟨only, rfl, start, ok⟩, by decide +kernel, intx_level_right wires only rfl start ok⟩

/-- Create completion queue 1 at 0x4000 with interrupts enabled, and submission queue 1 at 0x3000. -/
def createCommands : HostMem := fun p =>
  match p.toNat with
  | 0x1000 => 0x05 | 0x1019 => 0x40 | 0x1028 => 0x01 | 0x102A => 0x0F | 0x102C => 0x03
  | 0x1040 => 0x01 | 0x1059 => 0x30 | 0x1068 => 0x01 | 0x106A => 0x0F | 0x106C => 0x01 | 0x106E => 0x01
  | _ => 0

/-- The queues are created, an I/O command completes, and the guest takes the admin completions. -/
def adminTaken : Controller (Nat → Bool) :=
  let after : Transferred := ⟨fun _ => 0, createCommands, emptyBlk⟩
  final (nvmeStep wires) (newController createCommands)
    (setupAdmin ++ [.pciWrite 0x1000 2, .drainSq 0 after, .drainSq 0 after, .pciWrite 0x1008 1, .drainSq 1 after,
      .cmdWorker 0 after, .pciWrite 0x1004 2])

/-- The admin completion queue is emptied, and the line is lowered while queue 1 signals. -/
theorem shared_line_dropped :
    intxLevel wires adminTaken.bus adminTaken.addr = false ∧ Signals adminTaken.dev 1 :=
  ⟨by decide +kernel, by decide +kernel⟩

end Rvvm.Nvme
