import Rvvm.Devices.NvmeQueues

/-! Every active I/O submission queue has an active completion queue to complete its commands on,
until a completion queue is taken away from it. -/
namespace Rvvm.Nvme
open Runs

def Bound (dev : NvmeDev) (q : QueueId) : Prop :=
  ∃ k, nvmeGetQueue (dev.sq q).data.toNat = some k ∧ (dev.cq k).size ≠ 0

def AllBound (dev : NvmeDev) : Prop := ∀ q, q ≠ 0 → (dev.sq q).size ≠ 0 → Bound dev q

def Used (dev : NvmeDev) (k : QueueId) : Prop :=
  ∃ q, q ≠ 0 ∧ (dev.sq q).size ≠ 0 ∧ nvmeGetQueue (dev.sq q).data.toNat = some k

variable {σ : Type} (ctrl : Pci.Intc σ)

def DeletesUsed (c : Controller σ) (cmd : NvmeCmd) : Prop :=
  (c.machine.host cmd.sqe).toNat = 0x04 ∧
    ∃ k, k ≠ 0 ∧ nvmeGetQueue (cdw10 c cmd).toNat = some k ∧ Used c.dev k

/-- The step deletes a completion queue that is in use, or gives the admin completion queue the
size 0 while it is. -/
def Unbinds (c : Controller σ) : NvmeEvent → Prop
  | .drainSq q _ => q = 0 ∧ ∃ cmd, nextAdminCmd c = some cmd ∧ DeletesUsed c cmd
  | .pciWrite offset val => offset = 0x24 ∧ val >>> 16 &&& 0xFFF#32 = 0 ∧ Used c.dev 0
  | _ => False

section Frames
variable {dev dev' : NvmeDev}

structure SameSizes (dev dev' : NvmeDev) : Prop where
  sqSize : ∀ q, (dev'.sq q).size = (dev.sq q).size
  sqData : ∀ q, (dev'.sq q).data = (dev.sq q).data
  cqSize : ∀ k, (dev'.cq k).size = (dev.cq k).size

theorem SameSizes.of_same (sq : dev'.sq = dev.sq) (cq : dev'.cq = dev.cq) : SameSizes dev dev' where
  sqSize := fun _ => by rw [sq]
  sqData := fun _ => by rw [sq]
  cqSize := fun _ => by rw [cq]

theorem SameSizes.allBound_iff (same : SameSizes dev dev') : AllBound dev' ↔ AllBound dev := by
  unfold AllBound Bound
  simp [same.sqSize, same.sqData, same.cqSize]

theorem SameSizes.used_iff (same : SameSizes dev dev') (k : QueueId) : Used dev' k ↔ Used dev k := by
  unfold Used
  simp [same.sqSize, same.sqData]

theorem update_field {β : Type} (field : NvmeQueue → β) {queues : QueueId → NvmeQueue} {q : QueueId}
    {queue : NvmeQueue} (same : field queue = field (queues q)) (r : QueueId) :
    field (Function.update queues q queue r) = field (queues r) := by
  by_cases here : r = q
  · rw [here, Function.update_self, same]
  · rw [Function.update_of_ne here]

theorem sameSizes_setSq (c : Controller σ) (q : QueueId) (queue : NvmeQueue)
    (size : queue.size = (c.dev.sq q).size) (data : queue.data = (c.dev.sq q).data) :
    SameSizes c.dev (c.setSq q queue).dev where
  sqSize := update_field NvmeQueue.size size
  sqData := update_field NvmeQueue.data data
  cqSize := fun _ => rfl

theorem sameSizes_setCq (c : Controller σ) (k : QueueId) (queue : NvmeQueue)
    (size : queue.size = (c.dev.cq k).size) : SameSizes c.dev (c.setCq k queue).dev where
  sqSize := fun _ => rfl
  sqData := fun _ => rfl
  cqSize := update_field NvmeQueue.size size

theorem nvmeCompleteCmdCs_sameSizes (c : Controller σ) (cmd : NvmeCmd) (status : StatusCode) (cs : Reg) :
    SameSizes c.dev (nvmeCompleteCmdCs ctrl c cmd status cs).dev := by
  rw [nvmeCompleteCmdCs_dev]
  split
  · exact .of_same rfl rfl
  · exact sameSizes_setCq c _ _ rfl

end Frames

variable {c : Controller σ}

section
variable (bound : AllBound c.dev)
include bound

theorem allBound_setCq_iff {k : QueueId} {queue : NvmeQueue} :
    AllBound (c.setCq k queue).dev ↔ (queue.size = 0 → ¬ Used c.dev k) := by
  constructor
  · rintro after gone ⟨q, io, active, used⟩
    obtain ⟨k', found, size⟩ := after q io active
    obtain rfl := Option.some.inj (used.symm.trans found)
    rw [setCq_self] at size
    exact size gone
  · intro free q io active
    obtain ⟨k', found, size⟩ := bound q io active
    refine ⟨k', found, ?_⟩
    by_cases same : k' = k
    · subst same
      rw [setCq_self]
      exact fun gone => free gone ⟨q, io, active, found⟩
    · rw [setCq_of_ne c same]
      exact size

theorem allBound_setSq {q : QueueId} {queue : NvmeQueue}
    (new : queue.size ≠ 0 → ∃ k, nvmeGetQueue queue.data.toNat = some k ∧ (c.dev.cq k).size ≠ 0) :
    AllBound (c.setSq q queue).dev := by
  intro r io active
  unfold Bound
  by_cases here : r = q
  · subst here
    rw [setSq_self] at active ⊢
    exact new active
  · rw [setSq_of_ne c here] at active ⊢
    exact bound r io active

theorem nvmeAdminCmd_allBound_iff (cmd : NvmeCmd)
    (after : Transferred) : AllBound (nvmeAdminCmd ctrl c cmd after).dev ↔ ¬ DeletesUsed c cmd := by
  by_cases deletes : (c.machine.host cmd.sqe).toNat = 0x04 ∧
    ∃ k, k ≠ 0 ∧ nvmeGetQueue (cdw10 c cmd).toNat = some k
  · obtain ⟨opcode, k, io, named⟩ := deletes
    have lowered : AllBound (nvmeQueueLowerIrq ctrl c (c.dev.cq k)).dev := bound
    rw [nvmeAdminCmd_deleteCq ctrl c after io opcode named, nvmeCompleteCmd,
      (nvmeCompleteCmdCs_sameSizes ctrl _ cmd _ _).allBound_iff, allBound_setCq_iff lowered]
    constructor
    · rintro free ⟨-, k', -, named', used⟩
      obtain rfl := Option.some.inj (named.symm.trans named')
      exact free rfl used
    · intro none _ used
      exact none ⟨opcode, k, io, named, used⟩
  · refine iff_of_true ?_ fun ⟨opcode, k, io, named, _⟩ => deletes ⟨opcode, k, io, named⟩
    rcases nvmeAdminCmd_completes ctrl c cmd after with ⟨-, kept⟩ | ⟨c', status, cs, effect, result⟩
    · rw [kept]
      exact bound
    · rw [result, (nvmeCompleteCmdCs_sameSizes ctrl c' cmd status cs).allBound_iff]
      cases effect with
      | kept | transfer after => exact bound
      | createSq q k queue io binds active => exact allBound_setSq bound fun _ => ⟨k, binds, active⟩
      | deleteSq q io => exact allBound_setSq bound fun active => absurd rfl active
      | createCq k queue io opcode named active idle =>
        have lowered : AllBound (nvmeQueueLowerIrq ctrl c (c.dev.cq k)).dev := bound
        exact (allBound_setCq_iff lowered).mpr fun gone => absurd gone active
      | deleteCq k io opcode named => exact absurd ⟨opcode, k, io, named⟩ deletes

theorem nvmeRunCmd_allBound {q : QueueId} (io : q ≠ 0)
    (head : Reg) (after : Transferred) : AllBound (nvmeRunCmd ctrl c q head after).dev := by
  rw [nvmeRunCmd_eq]
  split
  · exact bound
  next cmd found =>
    rw [if_pos io]
    obtain ⟨c', status, kept, result⟩ := nvmeIoCommand_completes ctrl c cmd after
    rw [result, nvmeCompleteCmd, (nvmeCompleteCmdCs_sameSizes ctrl c' cmd status 0).allBound_iff]
    rcases kept with rfl | rfl <;> exact bound

theorem nvmeDrainSq_allBound_iff (q : QueueId)
    (after : Transferred) :
    AllBound (nvmeDrainSq ctrl c q after).dev ↔ ¬ Unbinds c (.drainSq q after) := by
  by_cases admin : q = 0
  · subst admin
    obtain ⟨head, result⟩ := nvmeDrainSq_admin ctrl c after
    have same := sameSizes_setSq c 0 { c.dev.sq 0 with head := head } rfl rfl
    rw [result]
    cases next : nextAdminCmd c with
    | none => exact iff_of_true (same.allBound_iff.mpr bound) (by simp [Unbinds, next])
    | some cmd =>
      have deletes : DeletesUsed (c.setSq 0 { c.dev.sq 0 with head := head }) cmd ↔ DeletesUsed c cmd :=
        and_congr_right fun _ => exists_congr fun k =>
          and_congr_right fun _ => and_congr_right fun _ => same.used_iff k
      exact (nvmeAdminCmd_allBound_iff ctrl (same.allBound_iff.mpr bound) cmd after).trans
        (not_congr (by simp [Unbinds, next, deletes]))
  · refine iff_of_true ?_ fun unbinds => admin unbinds.1
    unfold nvmeDrainSq
    split
    · exact bound
    next head queue found =>
      obtain ⟨-, next, rfl⟩ := nvmeQueueDequeue_some found
      rw [dif_pos admin]
      exact (sameSizes_setSq c q { c.dev.sq q with head := next } rfl rfl).allBound_iff.mpr bound
end

theorem nvmeDoorbell_sameSizes (c : Controller σ) (doorbell : Nat) (val : BitVec 16) :
    SameSizes c.dev (nvmeDoorbell ctrl c doorbell val).dev := by
  unfold nvmeDoorbell
  split
  · exact .of_same rfl rfl
  next q found =>
    split
    · dsimp only
      split <;> exact sameSizes_setCq c q _ rfl
    · exact sameSizes_setSq c q _ rfl rfl

theorem nvmePciWrite_allBound_iff (bound : AllBound c.dev) (offset : Nat) (val : Reg) :
    AllBound (nvmePciWrite ctrl c offset val).dev ↔ ¬ Unbinds c (.pciWrite offset val) := by
  have same {dev : NvmeDev} (sizes : SameSizes c.dev dev) (elsewhere : offset ≠ 0x24) :
      AllBound dev ↔ ¬ Unbinds c (.pciWrite offset val) :=
    iff_of_true (sizes.allBound_iff.mpr bound) fun unbinds => elsewhere unbinds.1
  unfold nvmePciWrite
  split
  next bell => exact same (nvmeDoorbell_sameSizes ctrl c _ _) (by omega)
  next low =>
    split
    · rw [nvmeCheckMaskedIrqs_dev]
      exact same (.of_same rfl rfl) (by decide)
    · rw [nvmeCheckMaskedIrqs_dev]
      exact same (.of_same rfl rfl) (by decide)
    · exact same (.of_same rfl rfl) (by decide)
    · have resized : AllBound (c.setSq 0 { c.dev.sq 0 with size := val &&& 0xFFF#32 }).dev := by
        intro q io
        rw [setSq_of_ne c io]
        intro active
        obtain ⟨k, found, size⟩ := bound q io active
        exact ⟨k, by rw [setSq_of_ne c io]; exact found, size⟩
      have used : Used (c.setSq 0 { c.dev.sq 0 with size := val &&& 0xFFF#32 }).dev 0 ↔ Used c.dev 0 := by
        refine exists_congr fun q => and_congr_right fun io => ?_
        rw [setSq_of_ne c io]
      rw [allBound_setCq_iff resized, used]
      simp [Unbinds]
    · exact same (sameSizes_setSq c 0 _ rfl rfl) (by decide)
    · exact same (sameSizes_setSq c 0 _ rfl rfl) (by decide)
    · exact same (sameSizes_setCq c 0 _ rfl) (by decide)
    · exact same (sameSizes_setCq c 0 _ rfl) (by decide)
    next _ _ _ elsewhere _ _ _ _ => exact same (.of_same rfl rfl) elsewhere

theorem nvmeReset_allBound (bound : AllBound c.dev) : AllBound (nvmeReset ctrl c).dev := by
  unfold nvmeReset
  split
  · intro q io active
    dsimp only at active
    rw [if_neg io] at active
    exact absurd rfl active
  · exact bound

theorem nvmeStep_allBound_iff (c : Controller σ) (event : NvmeEvent) (bound : AllBound c.dev) :
    AllBound (nvmeStep ctrl c event).dev ↔ ¬ Unbinds c event := by
  cases event with
  | pciWrite offset val => exact nvmePciWrite_allBound_iff ctrl bound offset val
  | drainSq q after => exact nvmeDrainSq_allBound_iff ctrl bound q after
  | cmdWorker i after =>
    refine iff_of_true ?_ id
    dsimp only [nvmeStep, nvmeCmdWorker]
    split
    · exact bound
    next worker found =>
      have rest : AllBound { c.dev with threads := c.dev.threads.eraseIdx i } := bound
      apply nvmeRunCmd_allBound ctrl _ worker.io worker.head after
      exact rest
  | reset => exact iff_of_true (nvmeReset_allBound ctrl bound) id
  | outside after => exact iff_of_true bound id

/-- From a new controller on, every active I/O submission queue stays bound to an active
completion queue exactly as long as no step takes one away that is in use. -/
theorem queue_binding_iff {σ : Type} (ctrl : Pci.Intc σ) (machine : RvvmMachine) (blk : RvvmBlk)
    (bus : Pci.PciBus σ) (addr : Nat) (events : List NvmeEvent) :
    (∀ c ∈ visited (nvmeStep ctrl) ⟨nvmeInit, machine, blk, bus, addr⟩ events, AllBound c.dev) ↔
      AllSteps (nvmeStep ctrl) (fun c event => ¬ Unbinds c event) ⟨nvmeInit, machine, blk, bus, addr⟩ events := by
  refine @invariant_iff (Controller σ) _ _ (fun _ => True) (fun c => AllBound c.dev) _ (fun _ _ _ => trivial)
    ?_ _ events trivial ?_
  · exact fun c event _ bound => nvmeStep_allBound_iff ctrl c event bound
  · exact fun q _ active => absurd rfl active

/-- Create completion queue 1, create submission queue 1 on it, delete completion queue 1. -/
def adminCommands : HostMem := fun p =>
  match p.toNat with
  | 0x1000 => 0x05 | 0x1028 => 0x01 | 0x102A => 0x0F | 0x102C => 0x01
  | 0x1040 => 0x01 | 0x1068 => 0x01 | 0x106A => 0x0F | 0x106C => 0x01 | 0x106E => 0x01
  | 0x1080 => 0x04 | 0x10A8 => 0x01
  | _ => 0

def deleteUsedCq : List NvmeEvent :=
  let after : Transferred := ⟨fun _ => 0, adminCommands, emptyBlk⟩
  setupAdmin ++ [.pciWrite 0x1000 3, .drainSq 0 after, .drainSq 0 after, .drainSq 0 after]

/-- The completion queue is deleted with success, and the submission queue stays behind. -/
theorem used_cq_deleted :
    let last := final (nvmeStep wires) (newController adminCommands) deleteUsedCq
    (last.dev.sq 1).size = 15 ∧ (last.dev.sq 1).data = 1 ∧ (last.dev.cq 1).size = 0 ∧
      ¬ AllBound last.dev := by
  intro last
  have active : (last.dev.sq 1).size = 15 := by decide +kernel
  have data : (last.dev.sq 1).data = 1 := by decide +kernel
  have gone : (last.dev.cq 1).size = 0 := by decide +kernel
  refine ⟨active, data, gone, ?_⟩
  intro bound
  obtain ⟨k, found, size⟩ := bound 1 (by decide) (by rw [active]; decide)
  cases found
  exact size gone

end Rvvm.Nvme
