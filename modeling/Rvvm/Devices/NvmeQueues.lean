import Rvvm.Devices.Nvme
import Rvvm.Devices.Pci

/-! The control path of the NVMe controller: submission and completion queues, the commands that
create and delete them, completions, interrupts and the registers. Data transfers are the other
model's concern; a command that makes one is given memory and disk as the transfer leaves them. -/
namespace Rvvm.Nvme
open Function (update update_of_ne update_self)

abbrev Reg := BitVec 32

/-- `nvme_queue_t`. `data` is the completion queue of a submission queue, and the interrupt
configuration of a completion queue. The slots are 0 to `size`. -/
structure NvmeQueue where
  addrL : Reg
  addrH : Reg
  size : Reg
  head : Reg
  tail : Reg
  data : Reg

/-- The admin queues are 0, and 16 pairs of I/O queues follow. -/
abbrev QueueId := Fin 17

scoped instance queuesNeZero : NeZero 17 := ⟨by decide⟩

/-- A worker that has not run its command yet: the I/O queue and the slot it came from. -/
structure Worker where
  queue : QueueId
  io : queue ≠ 0
  head : Reg

/-- `nvme_dev_t`. `resetting` is set while `nvme_reset` waits for the workers. -/
structure NvmeDev where
  sq : QueueId → NvmeQueue
  cq : QueueId → NvmeQueue
  threads : List Worker
  resetting : Bool
  conf : Reg
  irqMask : Reg
  tempThresh : Reg

/-- The controller at bus address `addr`, with the machine, disk and bus it works on. -/
structure Controller (σ : Type) where
  dev : NvmeDev
  machine : RvvmMachine
  blk : RvvmBlk
  bus : Pci.PciBus σ
  addr : Nat

/-- What a command meets and leaves: `image` is the disk a READ copies from, `host` and `blk` what
memory and disk hold when the transfer is over. -/
structure Transferred where
  image : Addr → Byte
  host : HostMem
  blk : RvvmBlk

inductive StatusCode
  | success | badOpcode | badField | dataErr | badCq | badQueueId | badQueueSize
  deriving DecidableEq, Repr

def StatusCode.code : StatusCode → Reg
  | success => 0x00
  | badOpcode => 0x01
  | badField => 0x02
  | dataErr => 0x04
  | badCq => 0x0100
  | badQueueId => 0x0101
  | badQueueSize => 0x0102

/-- `nvme_cmd_t`: the entry in host memory, its slot and queue, and the completion queue. -/
structure NvmeCmd where
  sqe : Addr
  sqhdSqid : Reg
  cqId : Reg

def nvmeGetQueue (queueId : Nat) : Option QueueId :=
  if valid : queueId < 17 then some ⟨queueId, valid⟩ else none

def nvmeQueueAddr (queue : NvmeQueue) : Addr := queue.addrH ++ queue.addrL

def nvmeQueueDequeue (queue : NvmeQueue) : Option (Reg × NvmeQueue) :=
  if queue.head = queue.tail ∨ queue.size < queue.tail then none
  else some (queue.head, { queue with head := if queue.head < queue.size then queue.head + 1 else 0 })

def nvmeQueueEnqueue (queue : NvmeQueue) : Reg × NvmeQueue :=
  (queue.tail, { queue with tail := if queue.tail < queue.size then queue.tail + 1 else 0 })

def NvmeQueue.irqEnabled (queue : NvmeQueue) : Bool := queue.data.getLsbD 1

def NvmeQueue.irqVec (queue : NvmeQueue) : Nat := (queue.data >>> 16).toNat

def vecBit (mask : Reg) (vec : Nat) : Bool := mask.getLsbD (vec % 32)

def nvmeQueueReset (queue : NvmeQueue) : NvmeQueue := { queue with head := 0, tail := 0 }

def nvmeQueueSetup (addr : Addr) (size data : Reg) : NvmeQueue where
  addrL := (addr &&& ~~~ nvmePageMask).setWidth 32
  addrH := (addr >>> 32).setWidth 32
  size := size
  head := 0
  tail := 0
  data := data

namespace Controller
variable {σ : Type} (c : Controller σ)

def setSq (q : QueueId) (queue : NvmeQueue) : Controller σ :=
  { c with dev := { c.dev with sq := update c.dev.sq q queue } }

def setCq (q : QueueId) (queue : NvmeQueue) : Controller σ :=
  { c with dev := { c.dev with cq := update c.dev.cq q queue } }

def setHost (host : HostMem) : Controller σ := { c with machine := { c.machine with host := host } }

def transfer (after : Transferred) : Controller σ := { c.setHost after.host with blk := after.blk }

def dmaPtr (addr : Addr) (size : Nat) : Option Addr :=
  (c.bus.funcs c.addr).bind fun func => pciGetDmaPtr ⟨c.machine, func.command⟩ addr size

end Controller

def writeUint32Le (host : HostMem) (p : Addr) (val : Reg) : HostMem :=
  host.write p (fun i => val.extractLsb' (8 * i.toNat) 8) 4

section Commands
variable {σ : Type} (ctrl : Pci.Intc σ) (c : Controller σ)

/-! Interrupts. -/

def nvmeQueueRaiseIrq (queue : NvmeQueue) : Controller σ :=
  if queue.irqEnabled && !vecBit c.dev.irqMask queue.irqVec then
    { c with bus := Pci.pciRaiseIrq ctrl c.bus c.addr queue.irqVec }
  else c

def nvmeQueueLowerIrq (queue : NvmeQueue) : Controller σ :=
  { c with bus := Pci.pciLowerIrq ctrl c.bus c.addr queue.irqVec }

/-- A round of the loop of `nvme_check_masked_irqs`. -/
def nvmeCheckMaskedIrq (mask : Reg) (c : Controller σ) (q : QueueId) : Controller σ :=
  if vecBit mask (c.dev.cq q).irqVec then
    if (c.dev.cq q).head ≠ (c.dev.cq q).tail then nvmeQueueRaiseIrq ctrl c (c.dev.cq q)
    else nvmeQueueLowerIrq ctrl c (c.dev.cq q)
  else c

def nvmeCheckMaskedIrqs (mask : Reg) : Controller σ :=
  (List.finRange 17).foldl (nvmeCheckMaskedIrq ctrl mask) c

/-- The second half of `nvme_complete_cmd_cs`: the entry goes to the slot that was claimed. -/
def nvmePostCqe (cmd : NvmeCmd) (q : QueueId) (tail status cs : Reg) : Controller σ :=
  let queue := c.dev.cq q
  match c.dmaPtr (nvmeQueueAddr queue + (tail <<< 4).setWidth 64) 16 with
  | none => c
  | some cqe =>
    let host := c.machine.host
    let cmdId := (readUint16Le host (cmd.sqe + 2)).setWidth 32
    let phase := ~~~ readUint32Le host (cqe + 12) &&& 0x10000#32
    let cidPs := cmdId ||| phase ||| (status <<< 17)
    let host := writeUint32Le host cqe cs
    let host := writeUint32Le host (cqe + 8) cmd.sqhdSqid
    let host := writeUint32Le host (cqe + 12) cidPs
    nvmeQueueRaiseIrq ctrl (c.setHost host) queue

def nvmeCompleteCmdCs (cmd : NvmeCmd) (status : StatusCode) (cs : Reg) : Controller σ :=
  match nvmeGetQueue cmd.cqId.toNat with
  | none => c
  | some q =>
    let (tail, queue) := nvmeQueueEnqueue (c.dev.cq q)
    nvmePostCqe ctrl (c.setCq q queue) cmd q tail status.code cs

def nvmeCompleteCmd (cmd : NvmeCmd) (status : StatusCode) : Controller σ :=
  nvmeCompleteCmdCs ctrl c cmd status 0

def cdw10 (cmd : NvmeCmd) : BitVec 16 := readUint16Le c.machine.host (cmd.sqe + 0x28)

def cdw10High (cmd : NvmeCmd) : BitVec 16 := readUint16Le c.machine.host (cmd.sqe + 0x2A)

def prp1 (cmd : NvmeCmd) : Addr := readUint64Le c.machine.host (cmd.sqe + 0x18)

def nvmeCreateIoSq (cmd : NvmeCmd) : Controller σ :=
  let sqId := (cdw10 c cmd).toNat
  let sqSize := (cdw10High c cmd).setWidth 32
  let cqFlag := readUint16Le c.machine.host (cmd.sqe + 0x2C)
  let cqId := readUint16Le c.machine.host (cmd.sqe + 0x2E)
  if cqFlag.getLsbD 0 = false then nvmeCompleteCmd ctrl c cmd .badField
  else if sqSize = 0 then nvmeCompleteCmd ctrl c cmd .badQueueSize
  else
    match nvmeGetQueue sqId with
    | none => nvmeCompleteCmd ctrl c cmd .badQueueId
    | some sq =>
      if sq = 0 ∨ (c.dev.sq sq).size ≠ 0 then nvmeCompleteCmd ctrl c cmd .badQueueId
      else
        match nvmeGetQueue cqId.toNat with
        | none => nvmeCompleteCmd ctrl c cmd .badCq
        | some cq =>
          if (c.dev.cq cq).size = 0 then nvmeCompleteCmd ctrl c cmd .badCq
          else
            let c := c.setSq sq (nvmeQueueSetup (prp1 c cmd) sqSize (cqId.setWidth 32))
            nvmeCompleteCmd ctrl c cmd .success

def nvmeCreateIoCq (cmd : NvmeCmd) : Controller σ :=
  let cqId := (cdw10 c cmd).toNat
  let cqSize := (cdw10High c cmd).setWidth 32
  let cqFlag := readUint32Le c.machine.host (cmd.sqe + 0x2C)
  if cqFlag.getLsbD 0 = false then nvmeCompleteCmd ctrl c cmd .badField
  else if cqSize = 0 then nvmeCompleteCmd ctrl c cmd .badQueueSize
  else
    match nvmeGetQueue cqId with
    | none => nvmeCompleteCmd ctrl c cmd .badQueueId
    | some cq =>
      if cq = 0 ∨ (c.dev.cq cq).size ≠ 0 then nvmeCompleteCmd ctrl c cmd .badQueueId
      else
        let queue := nvmeQueueSetup (prp1 c cmd) cqSize cqFlag
        nvmeCompleteCmd ctrl ((nvmeQueueLowerIrq ctrl c (c.dev.cq cq)).setCq cq queue) cmd .success

def nvmeDeleteIoQueue (cmd : NvmeCmd) (isCq : Bool) : Controller σ :=
  match nvmeGetQueue (cdw10 c cmd).toNat with
  | none => nvmeCompleteCmd ctrl c cmd .badQueueId
  | some q =>
    if q = 0 then nvmeCompleteCmd ctrl c cmd .badQueueId
    else
      let empty := nvmeQueueSetup 0 0 0
      let c := if isCq then (nvmeQueueLowerIrq ctrl c (c.dev.cq q)).setCq q empty else c.setSq q empty
      nvmeCompleteCmd ctrl c cmd .success

def nvmeGetLogPage (cmd : NvmeCmd) (after : Transferred) : Controller σ :=
  match (c.machine.host (cmd.sqe + 0x28)).toNat with
  | 0x01 | 0x02 | 0x03 => nvmeCompleteCmd ctrl (c.transfer after) cmd .success
  | _ => nvmeCompleteCmd ctrl c cmd .badField

def nvmeIdentify (cmd : NvmeCmd) (after : Transferred) : Controller σ :=
  match (c.machine.host (cmd.sqe + 0x28)).toNat with
  | 0x00 | 0x01 | 0x02 | 0x03 => nvmeCompleteCmd ctrl (c.transfer after) cmd .success
  | _ => nvmeCompleteCmd ctrl c cmd .badField

def nvmeHandleFeature (cmd : NvmeCmd) (set : Bool) : Controller σ :=
  let done (c : Controller σ) (featureVal : Reg) : Controller σ :=
    if set then nvmeCompleteCmd ctrl c cmd .success
    else nvmeCompleteCmdCs ctrl c cmd .success featureVal
  match (c.machine.host (cmd.sqe + 0x28)).toNat with
  | 0x01 => done c 0x07
  | 0x07 => done c 0x000F000F
  | 0x04 =>
    if set then
      let thresh := readUint32Le c.machine.host (cmd.sqe + 0x2C)
      done { c with dev := { c.dev with tempThresh := thresh } } 0
    else done c c.dev.tempThresh
  | 0x02 | 0x05 | 0x06 | 0x08 | 0x09 | 0x0A | 0x0B => done c 0
  | _ => nvmeCompleteCmd ctrl c cmd .badField

def nvmeAdminCmd (cmd : NvmeCmd) (after : Transferred) : Controller σ :=
  let opcode := (c.machine.host cmd.sqe).toNat
  match opcode with
  | 0x01 => nvmeCreateIoSq ctrl c cmd
  | 0x05 => nvmeCreateIoCq ctrl c cmd
  | 0x00 | 0x04 => nvmeDeleteIoQueue ctrl c cmd (opcode == 0x04)
  | 0x02 => nvmeGetLogPage ctrl c cmd after
  | 0x06 => nvmeIdentify ctrl c cmd after
  | 0x08 => nvmeCompleteCmdCs ctrl c cmd .success 1
  -- the source compares with the opcode for deleting a queue, so no feature is ever set
  | 0x09 | 0x0A => nvmeHandleFeature ctrl c cmd (opcode == 0x04)
  | 0x0C => c
  | _ => nvmeCompleteCmd ctrl c cmd .badOpcode

def ioFields (cmd : NvmeCmd) (op : IoOp) : IoCmd where
  op := op
  slba := readUint64Le c.machine.host (cmd.sqe + 0x28)
  nlb := readUint16Le c.machine.host (cmd.sqe + 0x30)
  prp1 := prp1 c cmd
  prp2 := readUint64Le c.machine.host (cmd.sqe + 0x20)

def Status.statusCode : Status → StatusCode
  | success => .success
  | dataErr => .dataErr

def nvmeIoStatus (image : Addr → Byte) (cmd : NvmeCmd) (op : IoOp) : StatusCode :=
  match c.bus.funcs c.addr with
  | none => .success
  | some func => (nvmeIoCmd image ⟨c.machine, func.command⟩ c.blk (ioFields c cmd op)).statusCode

def nvmeIoCommand (cmd : NvmeCmd) (after : Transferred) : Controller σ :=
  match (c.machine.host cmd.sqe).toNat with
  | 0x01 => nvmeCompleteCmd ctrl (c.transfer after) cmd (nvmeIoStatus c after.image cmd .write)
  | 0x02 => nvmeCompleteCmd ctrl (c.transfer after) cmd (nvmeIoStatus c after.image cmd .read)
  | 0x00 | 0x09 => nvmeCompleteCmd ctrl (c.transfer after) cmd .success
  | _ => nvmeCompleteCmd ctrl c cmd .badOpcode

def nvmeRunCmd (q : QueueId) (sqHead : Reg) (after : Transferred) : Controller σ :=
  let sq := c.dev.sq q
  match c.dmaPtr (nvmeQueueAddr sq + (sqHead <<< 6).setWidth 64) 64 with
  | none => c
  | some sqe =>
    let cmd : NvmeCmd := ⟨sqe, sqHead ||| (BitVec.ofNat 32 q.val <<< 16), sq.data⟩
    if q ≠ 0 then nvmeIoCommand ctrl c cmd after else nvmeAdminCmd ctrl c cmd after

/-- A round of the loop of `nvme_drain_sq`: an admin command runs at once, an I/O command is given
to a worker. -/
def nvmeDrainSq (q : QueueId) (after : Transferred) : Controller σ :=
  match nvmeQueueDequeue (c.dev.sq q) with
  | none => c
  | some (head, queue) =>
    let c := c.setSq q queue
    if io : q ≠ 0 then { c with dev := { c.dev with threads := c.dev.threads ++ [⟨q, io, head⟩] } }
    else nvmeRunCmd ctrl c q head after

/-- `nvme_cmd_worker`, for the worker with index `i`. -/
def nvmeCmdWorker (i : Nat) (after : Transferred) : Controller σ :=
  match c.dev.threads[i]? with
  | none => c
  | some worker =>
    let c := { c with dev := { c.dev with threads := c.dev.threads.eraseIdx i } }
    nvmeRunCmd ctrl c worker.queue worker.head after

def nvmeReset : Controller σ :=
  if c.dev.resetting && c.dev.threads.isEmpty then
    let lowered := (List.finRange 17).foldl (fun c q => nvmeQueueLowerIrq ctrl c (c.dev.cq q)) c
    let cleared (queues : QueueId → NvmeQueue) : QueueId → NvmeQueue :=
      fun q => if q = 0 then nvmeQueueReset (queues 0) else nvmeQueueSetup 0 0 0
    { lowered with
      dev := { lowered.dev with sq := cleared c.dev.sq, cq := cleared c.dev.cq, resetting := false } }
  else c

/-- A doorbell write; the rounds of draining that follow are steps of their own. -/
def nvmeDoorbell (doorbell : Nat) (val : BitVec 16) : Controller σ :=
  match nvmeGetQueue (doorbell / 2) with
  | none => c
  | some q =>
    if doorbell % 2 = 1 then
      let cq := { c.dev.cq q with head := val.setWidth 32 }
      let c := c.setCq q cq
      if cq.tail = val.setWidth 32 then nvmeQueueLowerIrq ctrl c cq else c
    else c.setSq q { c.dev.sq q with tail := val.setWidth 32 }

def nvmePciWrite (offset : Nat) (val : Reg) : Controller σ :=
  if 0x1000 ≤ offset then nvmeDoorbell ctrl c ((offset - 0x1000) / 4) (val.setWidth 16)
  else
    let sq := c.dev.sq 0
    let cq := c.dev.cq 0
    match offset with
    | 0x0C =>
      nvmeCheckMaskedIrqs ctrl { c with dev := { c.dev with irqMask := c.dev.irqMask ||| val } } val
    | 0x10 =>
      nvmeCheckMaskedIrqs ctrl { c with dev := { c.dev with irqMask := c.dev.irqMask &&& ~~~ val } } val
    | 0x14 =>
      let shutdown := decide (val &&& 0xC000#32 ≠ 0 ∨ val.getLsbD 0 = false)
      { c with dev := { c.dev with conf := val, resetting := c.dev.resetting || shutdown } }
    | 0x24 =>
      (c.setSq 0 { sq with size := val &&& 0xFFF#32 }).setCq 0 { cq with size := val >>> 16 &&& 0xFFF#32 }
    | 0x28 => c.setSq 0 { sq with addrL := val &&& ~~~ 0xFFF#32 }
    | 0x2C => c.setSq 0 { sq with addrH := val }
    | 0x30 => c.setCq 0 { cq with addrL := val &&& ~~~ 0xFFF#32 }
    | 0x34 => c.setCq 0 { cq with addrH := val }
    | _ => c

end Commands

/-- What happens to a controller: register writes, rounds of draining a submission queue, workers
running their command, a reset, and changes of memory and disk by others. -/
inductive NvmeEvent
  | pciWrite (offset : Nat) (val : Reg)
  | drainSq (q : QueueId) (after : Transferred)
  | cmdWorker (i : Nat) (after : Transferred)
  | reset
  | outside (after : Transferred)

def nvmeStep {σ : Type} (ctrl : Pci.Intc σ) (c : Controller σ) : NvmeEvent → Controller σ
  | .pciWrite offset val => nvmePciWrite ctrl c offset val
  | .drainSq q after => nvmeDrainSq ctrl c q after
  | .cmdWorker i after => nvmeCmdWorker ctrl c i after
  | .reset => nvmeReset ctrl c
  | .outside after => c.transfer after

/-- `nvme_init_blk`: a zeroed device, with interrupts of the admin completion queue enabled. -/
def nvmeInit : NvmeDev where
  sq := fun _ => nvmeQueueSetup 0 0 0
  cq := update (fun _ => nvmeQueueSetup 0 0 0) 0 (nvmeQueueSetup 0 0 0x02)
  threads := []
  resetting := false
  conf := 0
  irqMask := 0
  tempThresh := 0

/-! What the steps do, as their callers need it. -/

section Effects
variable {σ : Type} (ctrl : Pci.Intc σ) (c : Controller σ)

@[simp] theorem setSq_self (q : QueueId) (queue : NvmeQueue) : (c.setSq q queue).dev.sq q = queue :=
  update_self ..

theorem setSq_of_ne {q r : QueueId} (other : r ≠ q) (queue : NvmeQueue) :
    (c.setSq q queue).dev.sq r = c.dev.sq r := update_of_ne other ..

@[simp] theorem setCq_self (k : QueueId) (queue : NvmeQueue) : (c.setCq k queue).dev.cq k = queue :=
  update_self ..

theorem setCq_of_ne {k r : QueueId} (other : r ≠ k) (queue : NvmeQueue) :
    (c.setCq k queue).dev.cq r = c.dev.cq r := update_of_ne other ..

theorem nvmeQueueDequeue_some {queue queue' : NvmeQueue} {head : Reg}
    (found : nvmeQueueDequeue queue = some (head, queue')) :
    head = queue.head ∧ ∃ next, queue' = { queue with head := next } := by
  unfold nvmeQueueDequeue at found
  split at found
  · cases found
  · cases found
    exact ⟨rfl, _, rfl⟩

@[simp] theorem nvmeQueueRaiseIrq_dev (queue : NvmeQueue) : (nvmeQueueRaiseIrq ctrl c queue).dev = c.dev := by
  unfold nvmeQueueRaiseIrq
  split <;> rfl

@[simp] theorem nvmeQueueLowerIrq_dev (queue : NvmeQueue) : (nvmeQueueLowerIrq ctrl c queue).dev = c.dev := rfl

@[simp] theorem nvmePostCqe_dev (cmd : NvmeCmd) (q : QueueId) (tail status cs : Reg) :
    (nvmePostCqe ctrl c cmd q tail status cs).dev = c.dev := by
  unfold nvmePostCqe
  dsimp only
  split
  · rfl
  · rw [nvmeQueueRaiseIrq_dev]
    rfl

@[simp] theorem nvmeCheckMaskedIrq_dev (mask : Reg) (q : QueueId) :
    (nvmeCheckMaskedIrq ctrl mask c q).dev = c.dev := by
  unfold nvmeCheckMaskedIrq
  split
  · split
    · exact nvmeQueueRaiseIrq_dev ctrl c _
    · rfl
  · rfl

theorem foldl_dev {α : Type} {round : Controller σ → α → Controller σ} (kept : ∀ c a, (round c a).dev = c.dev)
    (as : List α) : (as.foldl round c).dev = c.dev := by
  induction as generalizing c with
  | nil => rfl
  | cons a as ih => exact (ih (round c a)).trans (kept c a)

@[simp] theorem nvmeCheckMaskedIrqs_dev (mask : Reg) : (nvmeCheckMaskedIrqs ctrl c mask).dev = c.dev :=
  foldl_dev c (fun c q => nvmeCheckMaskedIrq_dev ctrl c mask q) _

theorem nvmeCompleteCmdCs_dev (cmd : NvmeCmd) (status : StatusCode) (cs : Reg) :
    (nvmeCompleteCmdCs ctrl c cmd status cs).dev =
      match nvmeGetQueue cmd.cqId.toNat with
      | none => c.dev
      | some q => (c.setCq q (nvmeQueueEnqueue (c.dev.cq q)).2).dev := by
  unfold nvmeCompleteCmdCs
  split
  · rfl
  · exact nvmePostCqe_dev ctrl _ cmd _ _ _ _

inductive AdminEffect (cmd : NvmeCmd) : Controller σ → Prop
  | kept : AdminEffect cmd c
  | transfer (after : Transferred) : AdminEffect cmd (c.transfer after)
  | createSq (q k : QueueId) (queue : NvmeQueue) (io : q ≠ 0) (bound : nvmeGetQueue queue.data.toNat = some k)
      (active : (c.dev.cq k).size ≠ 0) : AdminEffect cmd (c.setSq q queue)
  | deleteSq (q : QueueId) (io : q ≠ 0) : AdminEffect cmd (c.setSq q (nvmeQueueSetup 0 0 0))
  | createCq (k : QueueId) (queue : NvmeQueue) (io : k ≠ 0) (opcode : (c.machine.host cmd.sqe).toNat = 0x05)
      (named : nvmeGetQueue (cdw10 c cmd).toNat = some k) (active : queue.size ≠ 0)
      (idle : queue.head = queue.tail) :
      AdminEffect cmd ((nvmeQueueLowerIrq ctrl c (c.dev.cq k)).setCq k queue)
  | deleteCq (k : QueueId) (io : k ≠ 0) (opcode : (c.machine.host cmd.sqe).toNat = 0x04)
      (named : nvmeGetQueue (cdw10 c cmd).toNat = some k) :
      AdminEffect cmd ((nvmeQueueLowerIrq ctrl c (c.dev.cq k)).setCq k (nvmeQueueSetup 0 0 0))

/-- The command makes its effect and completes, or it is the one that never does. -/
def Completes (cmd : NvmeCmd) (r : Controller σ) : Prop :=
  (c.machine.host cmd.sqe).toNat = 0x0C ∧ r = c ∨
    ∃ c' status cs, AdminEffect ctrl c cmd c' ∧ r = nvmeCompleteCmdCs ctrl c' cmd status cs

section
variable (cmd : NvmeCmd)
include cmd

theorem Completes.kept (status : StatusCode) (cs : Reg) :
    Completes ctrl c cmd (nvmeCompleteCmdCs ctrl c cmd status cs) := .inr ⟨c, status, cs, .kept, rfl⟩

theorem nvmeCreateIoSq_completes : Completes ctrl c cmd (nvmeCreateIoSq ctrl c cmd) := by
  unfold nvmeCreateIoSq
  dsimp only
  split
  · exact .kept ctrl c cmd _ _
  split
  · exact .kept ctrl c cmd _ _
  split
  · exact .kept ctrl c cmd _ _
  next q found =>
    split
    · exact .kept ctrl c cmd _ _
    next usable =>
      split
      · exact .kept ctrl c cmd _ _
      next k bound =>
        split
        · exact .kept ctrl c cmd _ _
        next active =>
          refine .inr ⟨_, _, _, .createSq q k _ (fun zero => usable (.inl zero)) ?_ active, rfl⟩
          rw [← bound]
          exact congrArg nvmeGetQueue (BitVec.toNat_setWidth_of_le (by decide))

theorem nvmeCreateIoCq_completes (opcode : (c.machine.host cmd.sqe).toNat = 0x05) :
    Completes ctrl c cmd (nvmeCreateIoCq ctrl c cmd) := by
  unfold nvmeCreateIoCq
  dsimp only
  split
  · exact .kept ctrl c cmd _ _
  split
  · exact .kept ctrl c cmd _ _
  next active =>
    split
    · exact .kept ctrl c cmd _ _
    next k named =>
      split
      · exact .kept ctrl c cmd _ _
      next usable =>
        refine .inr ⟨_, _, _, .createCq k _ (fun zero => usable (.inl zero)) opcode named active rfl, rfl⟩

theorem nvmeDeleteIoQueue_completes (isCq : Bool)
    (opcode : isCq = true → (c.machine.host cmd.sqe).toNat = 0x04) :
    Completes ctrl c cmd (nvmeDeleteIoQueue ctrl c cmd isCq) := by
  unfold nvmeDeleteIoQueue
  split
  · exact .kept ctrl c cmd _ _
  next k named =>
    split
    · exact .kept ctrl c cmd _ _
    next io =>
      cases isCq with
      | false => exact .inr ⟨_, _, _, .deleteSq k io, rfl⟩
      | true => exact .inr ⟨_, _, _, .deleteCq k io (opcode rfl) named, rfl⟩

theorem nvmeHandleFeature_completes :
    Completes ctrl c cmd (nvmeHandleFeature ctrl c cmd false) := by
  unfold nvmeHandleFeature
  dsimp only
  split <;> exact .kept ctrl c cmd _ _

theorem nvmeAdminCmd_completes (after : Transferred) :
    Completes ctrl c cmd (nvmeAdminCmd ctrl c cmd after) := by
  have transferred : Completes ctrl c cmd (nvmeCompleteCmd ctrl (c.transfer after) cmd .success) :=
    .inr ⟨_, _, _, .transfer after, rfl⟩
  unfold nvmeAdminCmd
  dsimp only
  split
  · exact nvmeCreateIoSq_completes ctrl c cmd
  next opcode => exact nvmeCreateIoCq_completes ctrl c cmd opcode
  next opcode =>
    rw [opcode]
    exact nvmeDeleteIoQueue_completes ctrl c cmd false nofun
  next opcode =>
    rw [opcode]
    exact nvmeDeleteIoQueue_completes ctrl c cmd true fun _ => opcode
  · unfold nvmeGetLogPage
    split
    all_goals first | exact transferred | exact .kept ctrl c cmd _ _
  · unfold nvmeIdentify
    split
    all_goals first | exact transferred | exact .kept ctrl c cmd _ _
  · exact .kept ctrl c cmd _ _
  next opcode =>
    rw [opcode]
    exact nvmeHandleFeature_completes ctrl c cmd
  next opcode =>
    rw [opcode]
    exact nvmeHandleFeature_completes ctrl c cmd
  next opcode => exact .inl ⟨opcode, rfl⟩
  · exact .kept ctrl c cmd _ _
end

theorem nvmeAdminCmd_deleteCq {cmd : NvmeCmd} (after : Transferred) {k : QueueId} (io : k ≠ 0)
    (opcode : (c.machine.host cmd.sqe).toNat = 0x04) (named : nvmeGetQueue (cdw10 c cmd).toNat = some k) :
    nvmeAdminCmd ctrl c cmd after = nvmeCompleteCmd ctrl
      ((nvmeQueueLowerIrq ctrl c (c.dev.cq k)).setCq k (nvmeQueueSetup 0 0 0)) cmd .success := by
  unfold nvmeAdminCmd
  rw [opcode]
  unfold nvmeDeleteIoQueue
  rw [named]
  exact if_neg io

theorem nvmeIoCommand_completes (cmd : NvmeCmd) (after : Transferred) :
    ∃ c' status, (c' = c ∨ c' = c.transfer after) ∧
      nvmeIoCommand ctrl c cmd after = nvmeCompleteCmd ctrl c' cmd status := by
  unfold nvmeIoCommand
  split
  · exact ⟨_, _, .inr rfl, rfl⟩
  · exact ⟨_, _, .inr rfl, rfl⟩
  · exact ⟨_, _, .inr rfl, rfl⟩
  · exact ⟨_, _, .inr rfl, rfl⟩
  · exact ⟨_, _, .inl rfl, rfl⟩

def cmdAt (q : QueueId) (head : Reg) : Option NvmeCmd :=
  (c.dmaPtr (nvmeQueueAddr (c.dev.sq q) + (head <<< 6).setWidth 64) 64).map fun sqe =>
    ⟨sqe, head ||| (BitVec.ofNat 32 q.val <<< 16), (c.dev.sq q).data⟩

def nextAdminCmd : Option NvmeCmd := (nvmeQueueDequeue (c.dev.sq 0)).bind fun next => cmdAt c 0 next.1

theorem nvmeRunCmd_eq (q : QueueId) (head : Reg) (after : Transferred) :
    nvmeRunCmd ctrl c q head after =
      match cmdAt c q head with
      | none => c
      | some cmd => if q ≠ 0 then nvmeIoCommand ctrl c cmd after else nvmeAdminCmd ctrl c cmd after := by
  unfold nvmeRunCmd cmdAt
  dsimp only
  cases c.dmaPtr (nvmeQueueAddr (c.dev.sq q) + (head <<< 6).setWidth 64) 64 with
  | none => rfl
  | some sqe => rfl

theorem nvmeDrainSq_admin (after : Transferred) : ∃ head, nvmeDrainSq ctrl c 0 after =
    match nextAdminCmd c with
    | none => c.setSq 0 { c.dev.sq 0 with head := head }
    | some cmd => nvmeAdminCmd ctrl (c.setSq 0 { c.dev.sq 0 with head := head }) cmd after := by
  unfold nvmeDrainSq nextAdminCmd nvmeQueueDequeue
  split
  next empty =>
    split at empty
    next stop =>
      rw [if_pos stop]
      refine ⟨(c.dev.sq 0).head, ?_⟩
      exact (congrArg (fun sq => { c with dev := { c.dev with sq := sq } })
        (Function.update_eq_self 0 c.dev.sq)).symm
    · cases empty
  next head queue found =>
    split at found
    · cases found
    next go =>
      cases found
      rw [if_neg go]
      refine ⟨if (c.dev.sq 0).head < (c.dev.sq 0).size then (c.dev.sq 0).head + 1 else 0, ?_⟩
      rw [dif_neg (not_not.mpr rfl), nvmeRunCmd_eq]
      rfl

end Effects

/-! A small machine: a megabyte of RAM, a disk without sectors, one line for every interrupt. -/

def smallRam : RvvmRam := ⟨0, 0x100000, 0, by decide, by decide⟩

def emptyBlk : RvvmBlk :=
  ⟨true, true, false, 0, fun _ _ => 0, fun _ _ => 0, fun _ _ => Nat.zero_le _, fun _ _ => Nat.zero_le _⟩

def wires : Pci.Intc (Nat → Bool) where
  setIrq := update
  level := id
  valid := fun _ => True
  level_setIrq := fun _ _ _ _ => rfl

def newController (host : HostMem) : Controller (Nat → Bool) where
  dev := nvmeInit
  machine := ⟨smallRam, host, []⟩
  blk := emptyBlk
  bus :=
    { funcs := fun addr => if addr = 8 then some (Pci.pciAttachFunc (fun line => line.val) 8 1) else none
      irqs := fun line => line.val
      intc := fun _ => false
      sent := [] }
  addr := 8

def setupAdmin : List NvmeEvent := [.pciWrite 0x24 0x000F000F, .pciWrite 0x28 0x1000, .pciWrite 0x30 0x2000]

end Rvvm.Nvme
