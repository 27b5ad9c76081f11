import Rvvm.Devices.NvmeQueues
import Rvvm.Library.Ring

/-! Completions of several commands at once. Each claims a slot of its completion queue and posts
its entry there later, while the host takes entries and moves the head. No claim looks at the head,
and the identifier is read from the submission queue when the entry is posted. -/
namespace Rvvm.Nvme
open BitVec List Probing Runs
open Function (update update_of_ne update_self)

/-- A command that was dequeued and not completed yet, with the identifier its entry had then and
the slot it has claimed. -/
structure Running where
  queue : QueueId
  cmd : NvmeCmd
  cid : BitVec 16
  slot : Option (QueueId × Reg)

/-- An entry as it was posted: the identifier in it, the identifier of the command, and whether
the slot was free. -/
structure Post where
  id : Nat
  cid : BitVec 16
  own : BitVec 16
  free : Bool

/-- Commands are numbered as they are dequeued. `dropped` are those that ended without an entry,
`unread` the slots with an entry the host has not consumed. -/
structure CqRun (σ : Type) where
  c : Controller σ
  next : Nat
  running : Nat → Option Running
  dropped : List Nat
  posts : List Post
  unread : QueueId → Nat → Bool

inductive CqEvent
  | dequeue (q : QueueId)
  | claim (id : Nat)
  | post (id : Nat) (status : StatusCode) (cs : Reg)
  | cqDoorbell (k : QueueId) (val : BitVec 16)
  | sqDoorbell (q : QueueId) (val : BitVec 16)
  | outside (after : Transferred)

def cqeAt {σ : Type} (c : Controller σ) (k : QueueId) (slot : Reg) : Option Addr :=
  c.dmaPtr (nvmeQueueAddr (c.dev.cq k) + (slot <<< 4).setWidth 64) 16

/-- The slot is one the head moves over. -/
def Consumed (queue : NvmeQueue) (val : Reg) (slot : Nat) : Prop :=
  dist (queue.size.toNat + 1) queue.head.toNat slot < dist (queue.size.toNat + 1) queue.head.toNat val.toNat

instance (queue : NvmeQueue) (val : Reg) (slot : Nat) : Decidable (Consumed queue val slot) :=
  inferInstanceAs (Decidable (_ < _))

section Steps
variable {σ : Type} (ctrl : Pci.Intc σ) (s : CqRun σ)

def CqRun.dequeue (q : QueueId) : CqRun σ :=
  match nvmeQueueDequeue (s.c.dev.sq q) with
  | none => s
  | some (head, queue) =>
    let c := s.c.setSq q queue
    let dropped := { s with c := c, next := s.next + 1, dropped := s.dropped ++ [s.next] }
    match cmdAt c q head with
    | none => dropped
    | some cmd =>
      -- the admin command that waits for an event is not completed
      if q = 0 ∧ (c.machine.host cmd.sqe).toNat = 0x0C then dropped
      else
        let cid := readUint16Le c.machine.host (cmd.sqe + 2)
        { s with
          c := c
          next := s.next + 1
          running := update s.running s.next (some ⟨q, cmd, cid, none⟩) }

def CqRun.drop (id : Nat) : CqRun σ :=
  { s with running := update s.running id none, dropped := s.dropped ++ [id] }

/-- The first half of `nvme_complete_cmd_cs`. -/
def CqRun.claim (id : Nat) : CqRun σ :=
  match s.running id with
  | some ⟨q, cmd, cid, none⟩ =>
    match nvmeGetQueue cmd.cqId.toNat with
    | none => s.drop id
    | some k =>
      let (tail, queue) := nvmeQueueEnqueue (s.c.dev.cq k)
      { s with
        c := s.c.setCq k queue
        running := update s.running id (some ⟨q, cmd, cid, some (k, tail)⟩) }
  | _ => s

def CqRun.post (id : Nat) (status : StatusCode) (cs : Reg) : CqRun σ :=
  match s.running id with
  | some ⟨_, cmd, own, some (k, tail)⟩ =>
    let c := nvmePostCqe ctrl s.c cmd k tail status.code cs
    match cqeAt s.c k tail with
    | none => { s.drop id with c := c }
    | some cqe =>
      { s with
        c := c
        running := update s.running id none
        posts := s.posts ++ [⟨id, readUint16Le c.machine.host (cqe + 12), own, !s.unread k tail.toNat⟩]
        unread := update s.unread k (update (s.unread k) tail.toNat true) }
  | _ => s

def CqRun.cqDoorbell (k : QueueId) (val : BitVec 16) : CqRun σ :=
  { s with
    c := nvmeDoorbell ctrl s.c (2 * k.val + 1) val
    unread := update s.unread k fun slot =>
      s.unread k slot && !decide (Consumed (s.c.dev.cq k) (val.setWidth 32) slot) }

def cqStep : CqEvent → CqRun σ
  | .dequeue q => s.dequeue q
  | .claim id => s.claim id
  | .post id status cs => s.post ctrl id status cs
  | .cqDoorbell k val => s.cqDoorbell ctrl k val
  | .sqDoorbell q val => { s with c := nvmeDoorbell ctrl s.c (2 * q.val) val }
  | .outside after => { s with c := s.c.transfer after }

end Steps

def CqRun.start {σ : Type} (c : Controller σ) : CqRun σ := ⟨c, 0, fun _ => none, [], [], fun _ _ => false⟩

/-! `nvme_run_cmd` in these steps. -/

section Connection
variable {σ : Type} (ctrl : Pci.Intc σ) (s : CqRun σ) {id : Nat} {r : Running}

theorem CqRun.claim_post (found : s.running id = some r) (idle : r.slot = none) (status : StatusCode) (cs : Reg) :
    ((s.claim id).post ctrl id status cs).c = nvmeCompleteCmdCs ctrl s.c r.cmd status cs := by
  obtain ⟨q, cmd, cid, slot⟩ := r
  obtain rfl : slot = none := idle
  unfold CqRun.claim nvmeCompleteCmdCs
  rw [found]
  dsimp only
  cases nvmeGetQueue cmd.cqId.toNat with
  | none =>
    unfold CqRun.post CqRun.drop
    dsimp only
    rw [update_self]
  | some k =>
    unfold CqRun.post
    dsimp only
    rw [update_self]
    dsimp only
    split <;> rfl

/-- A command that `nvme_run_cmd` runs claims one slot and posts one entry, after what it changes
itself, unless it is the admin command that waits for an event. -/
theorem CqRun.nvmeRunCmd_claims (found : s.running id = some r) (idle : r.slot = none) {head : Reg}
    (entry : cmdAt s.c r.queue head = some r.cmd) (after : Transferred)
    (answers : ¬ (r.queue = 0 ∧ (s.c.machine.host r.cmd.sqe).toNat = 0x0C)) :
    ∃ c status cs, AdminEffect ctrl s.c r.cmd c ∧
      nvmeRunCmd ctrl s.c r.queue head after = (({ s with c := c }.claim id).post ctrl id status cs).c := by
  have completed (c : Controller σ) (status : StatusCode) (cs : Reg) :
      nvmeCompleteCmdCs ctrl c r.cmd status cs = (({ s with c := c }.claim id).post ctrl id status cs).c :=
    (CqRun.claim_post ctrl { s with c := c } found idle status cs).symm
  rw [nvmeRunCmd_eq, entry]
  dsimp only
  by_cases io : r.queue ≠ 0
  · obtain ⟨c, status, kept, result⟩ := nvmeIoCommand_completes ctrl s.c r.cmd after
    rw [if_pos io, result]
    refine ⟨c, status, 0, ?_, completed c status 0⟩
    rcases kept with rfl | rfl
    · exact .kept
    · exact .transfer after
  · rw [if_neg io]
    rcases nvmeAdminCmd_completes ctrl s.c r.cmd after with ⟨waits, -⟩ | ⟨c, status, cs, effect, result⟩
    · exact absurd ⟨not_not.mp io, waits⟩ answers
    · exact ⟨c, status, cs, effect, result.trans (completed c status cs)⟩

/-- A round of `nvme_drain_sq` on the admin queue dequeues and runs the command. -/
theorem CqRun.nvmeDrainSq_dequeues (after : Transferred) :
    nvmeDrainSq ctrl s.c 0 after =
      match nvmeQueueDequeue (s.c.dev.sq 0) with
      | none => (s.dequeue 0).c
      | some (head, _) => nvmeRunCmd ctrl (s.dequeue 0).c 0 head after := by
  unfold nvmeDrainSq CqRun.dequeue
  cases nvmeQueueDequeue (s.c.dev.sq 0) with
  | none => rfl
  | some next =>
    dsimp only
    rw [dif_neg (not_not.mpr rfl)]
    congr 1
    split
    · rfl
    · split <;> rfl

end Connection

section Property
variable {σ : Type}

/-- Entries are posted to free slots with the identifier of their command, one for each command
that is done and was not dropped. -/
structure Delivered (s : CqRun σ) : Prop where
  free : ∀ p ∈ s.posts, p.free = true
  own : ∀ p ∈ s.posts, p.cid = p.own
  once : ∀ id, id < s.next → s.running id = none → id ∉ s.dropped → (s.posts.map Post.id).count id = 1

/-- The identifier in a submission entry lies outside a completion entry. -/
def Apart (sqe cqe : Addr) : Prop := ¬ sqe + 2 - cqe < 16 ∧ ¬ sqe + 3 - cqe < 16

instance (sqe cqe : Addr) : Decidable (Apart sqe cqe) := inferInstanceAs (Decidable (_ ∧ _))

/-- A slot is claimed while the queue has room, the host moves the head over entries that it can
have read, and the identifiers of running commands are left alone. -/
def CqOk (s : CqRun σ) : CqEvent → Prop
  | .claim id => ∀ r, s.running id = some r → ∀ k, nvmeGetQueue r.cmd.cqId.toNat = some k →
      (nvmeQueueEnqueue (s.c.dev.cq k)).2.tail ≠ (s.c.dev.cq k).head
  | .post id _ _ => ∀ r k tail cqe, s.running id = some r → r.slot = some (k, tail) → cqeAt s.c k tail = some cqe →
      ∀ other r', other ≠ id → s.running other = some r' → Apart r'.cmd.sqe cqe
  | .cqDoorbell k val => val.toNat ≤ (s.c.dev.cq k).size.toNat ∧
      ∀ slot, slot ≤ (s.c.dev.cq k).size.toNat → Consumed (s.c.dev.cq k) (val.setWidth 32) slot →
        s.unread k slot = true
  | .outside after => ∀ id r, s.running id = some r → readUint16Le after.host (r.cmd.sqe + 2) = r.cid
  | _ => True

/-- The command has claimed the slot and not posted there yet. -/
def Holds (running : Nat → Option Running) (id : Nat) (k : QueueId) (t : Nat) : Prop :=
  ∃ r tail, running id = some r ∧ r.slot = some (k, tail) ∧ tail.toNat = t

/-- Slots are claimed by one command each, and the identifiers of running commands are still
there. -/
structure Orderly (s : CqRun σ) : Prop where
  slots : ∀ k, Ring.Slots ((s.c.dev.cq k).size.toNat + 1) (s.c.dev.cq k).head.toNat (s.c.dev.cq k).tail.toNat
    (fun t => s.unread k t = true) (fun t => ∃ id, Holds s.running id k t)
  distinct : ∀ id id' k t, Holds s.running id k t → Holds s.running id' k t → id = id'
  cids : ∀ id r, s.running id = some r → readUint16Le s.c.machine.host (r.cmd.sqe + 2) = r.cid
  free : ∀ p ∈ s.posts, p.free = true
  own : ∀ p ∈ s.posts, p.cid = p.own

/-- Every command is in one place: to come, running, dropped or posted. -/
structure Accounted (next : Nat) (running : Nat → Option Running) (dropped ids : List Nat) : Prop where
  count : ∀ id, ids.count id = if id < next ∧ running id = none ∧ id ∉ dropped then 1 else 0
  later : ∀ id, next ≤ id → running id = none ∧ id ∉ dropped
  kept : ∀ id r, running id = some r → id ∉ dropped

end Property

namespace Accounted
variable {next id : Nat} {running : Nat → Option Running} {dropped ids : List Nat}
  (accounted : Accounted next running dropped ids)

include accounted

variable {r : Running}

theorem started (found : running id = some r) : id < next := by
  by_contra later
  rw [(accounted.later id (Nat.le_of_not_lt later)).1] at found
  cases found

theorem take (r : Running) : Accounted (next + 1) (update running next (some r)) dropped ids where
  count := by
    intro id
    rw [accounted.count id]
    by_cases new : id = next
    · subst new
      rw [if_neg (by simp), if_neg (by simp)]
    · rw [update_of_ne new]
      exact if_congr (and_congr_left fun _ => by omega) rfl rfl
  later := by
    intro id after
    rw [update_of_ne (by omega)]
    exact accounted.later id (by omega)
  kept := by
    intro id r' found
    by_cases new : id = next
    · exact (accounted.later id (by omega)).2
    · rw [update_of_ne new] at found
      exact accounted.kept id r' found

theorem skip : Accounted (next + 1) running (dropped ++ [next]) ids where
  count := by
    intro id
    rw [accounted.count id]
    refine if_congr ?_ rfl rfl
    rw [mem_append, mem_singleton]
    by_cases new : id = next
    · exact iff_of_false (by omega) fun posted => posted.2.2 (.inr new)
    · rw [or_iff_left new]
      exact and_congr_left fun _ => by omega
  later := by
    intro id after
    have before := accounted.later id (by omega)
    refine ⟨before.1, ?_⟩
    rw [mem_append, mem_singleton]
    rintro (member | rfl)
    · exact before.2 member
    · omega
  kept := by
    intro id r found
    have started := accounted.started found
    rw [mem_append, mem_singleton]
    rintro (member | rfl)
    · exact accounted.kept id r found member
    · omega

theorem replace (found : running id = some r) (r' : Running) :
    Accounted next (update running id (some r')) dropped ids where
  count := by
    intro other
    rw [accounted.count other]
    by_cases same : other = id
    · subst same
      rw [found, if_neg (by simp), if_neg (by simp)]
    · rw [update_of_ne same]
  later := by
    intro other after
    have started := accounted.started found
    rw [update_of_ne (by omega)]
    exact accounted.later other after
  kept := by
    intro other r'' busy
    by_cases same : other = id
    · exact same ▸ accounted.kept id r found
    · rw [update_of_ne same] at busy
      exact accounted.kept other r'' busy

theorem drop (found : running id = some r) :
    Accounted next (update running id none) (dropped ++ [id]) ids where
  count := by
    intro other
    rw [accounted.count other]
    refine if_congr ?_ rfl rfl
    rw [mem_append, mem_singleton]
    by_cases same : other = id
    · subst same
      rw [found]
      exact iff_of_false (fun posted => by cases posted.2.1) fun posted => posted.2.2 (.inr rfl)
    · rw [update_of_ne same, or_iff_left same]
  later := by
    intro other after
    have started := accounted.started found
    have apart : other ≠ id := by omega
    rw [update_of_ne apart, mem_append, mem_singleton, or_iff_left apart]
    exact accounted.later other after
  kept := by
    intro other r' busy
    by_cases same : other = id
    · subst same
      rw [update_self] at busy
      cases busy
    · rw [update_of_ne same] at busy
      rw [mem_append, mem_singleton, or_iff_left same]
      exact accounted.kept other r' busy

theorem post (found : running id = some r) :
    Accounted next (update running id none) dropped (ids ++ [id]) where
  count := by
    intro other
    rw [count_append, accounted.count other]
    by_cases same : other = id
    · subst same
      have admitted : other < next ∧ update running other none other = none ∧ other ∉ dropped :=
        ⟨accounted.started found, update_self .., accounted.kept other r found⟩
      rw [if_pos admitted, found, if_neg (by simp), count_singleton_self]
    · have absent : [id].count other = 0 := count_eq_zero.mpr (by simpa using same)
      rw [update_of_ne same, absent, Nat.add_zero]
  later := by
    intro other after
    have started := accounted.started found
    rw [update_of_ne (by omega)]
    exact accounted.later other after
  kept := by
    intro other r' busy
    by_cases same : other = id
    · subst same
      rw [update_self] at busy
      cases busy
    · rw [update_of_ne same] at busy
      exact accounted.kept other r' busy

end Accounted

theorem CqRun.step_accounted {σ : Type} (ctrl : Pci.Intc σ) {s : CqRun σ} (event : CqEvent)
    (accounted : Accounted s.next s.running s.dropped (s.posts.map Post.id)) :
    let s' := cqStep ctrl s event
    Accounted s'.next s'.running s'.dropped (s'.posts.map Post.id) := by
  cases event with
  | dequeue q =>
    dsimp only [cqStep, CqRun.dequeue]
    split
    · exact accounted
    · split
      · exact accounted.skip
      · split
        · exact accounted.skip
        · exact accounted.take _
  | claim id =>
    dsimp only [cqStep, CqRun.claim]
    split
    next q cmd cid found =>
      split
      · exact accounted.drop found
      · exact accounted.replace found _
    · exact accounted
  | post id status cs =>
    dsimp only [cqStep, CqRun.post]
    split
    next q cmd own k tail found =>
      split
      · exact accounted.drop found
      · rw [map_append]
        exact accounted.post found
    · exact accounted
  | cqDoorbell k val | sqDoorbell q val | outside after => exact accounted

section Frames
variable {σ : Type} {s : CqRun σ}

theorem Orderly.of_same (orderly : Orderly s) {c : Controller σ} (cq : c.dev.cq = s.c.dev.cq)
    (host : c.machine.host = s.c.machine.host) : Orderly { s with c := c } :=
  { orderly with
    slots := by rw [cq]; exact orderly.slots
    cids := by rw [host]; exact orderly.cids }

variable {running : Nat → Option Running}

theorem holds_update_of_ne {id other : Nat} (apart : other ≠ id)
    (r : Option Running) (k : QueueId) (t : Nat) :
    Holds (update running id r) other k t ↔ Holds running other k t := by
  unfold Holds
  rw [update_of_ne apart]

variable {r : Option Running}

theorem holds_update_self {id : Nat} {k : QueueId} {t : Nat}
    (holds : Holds (update running id r) id k t) :
    ∃ r' tail, r = some r' ∧ r'.slot = some (k, tail) ∧ tail.toNat = t := by
  unfold Holds at holds
  rw [update_self] at holds
  exact holds

theorem holds_release {id : Nat}
    (idle : ∀ r', r = some r' → r'.slot = none) {other : Nat} {k : QueueId} {t : Nat}
    (holds : Holds (update running id r) other k t) : other ≠ id ∧ Holds running other k t := by
  by_cases same : other = id
  · subst same
    obtain ⟨r', tail, found, slot, -⟩ := holds_update_self holds
    rw [idle r' found] at slot
    cases slot
  · exact ⟨same, (holds_update_of_ne same r k t).mp holds⟩

theorem Orderly.release (orderly : Orderly s) (id : Nat)
    (idle : ∀ r', r = some r' → r'.slot = none)
    (cid : ∀ r', r = some r' → readUint16Le s.c.machine.host (r'.cmd.sqe + 2) = r'.cid) :
    Orderly { s with running := update s.running id r } :=
  { orderly with
    slots := fun k => (orderly.slots k).release (fun _ => Iff.rfl)
      fun _ ⟨other, holds⟩ => ⟨other, (holds_release idle holds).2⟩
    distinct := fun i j k t first second =>
      orderly.distinct i j k t (holds_release idle first).2 (holds_release idle second).2
    cids := by
      intro other r' found
      by_cases same : other = id
      · subst same
        exact cid r' ((update_self other r s.running).symm.trans found)
      · exact orderly.cids other r' ((update_of_ne same r s.running).symm.trans found) }

end Frames

section Steps
variable {σ : Type} (ctrl : Pci.Intc σ) {s : CqRun σ}

theorem dequeue_orderly (orderly : Orderly s) (q : QueueId) : Orderly (s.dequeue q) := by
  unfold CqRun.dequeue
  split
  · exact orderly
  next head queue found =>
    have moved : Orderly { s with c := s.c.setSq q queue } := orderly.of_same rfl rfl
    dsimp only
    split
    · exact { moved with }
    next cmd entry =>
      split
      · exact { moved with }
      · have taken := moved.release s.next
          (r := some ⟨q, cmd, readUint16Le s.c.machine.host (cmd.sqe + 2), none⟩)
          (fun r' same => by cases same; rfl) (fun r' same => by cases same; rfl)
        exact { taken with }

theorem drop_orderly (orderly : Orderly s) (id : Nat) : Orderly (s.drop id) :=
  { orderly.release id (r := none) nofun nofun with }

theorem nvmeQueueEnqueue_tail {queue : NvmeQueue} (inside : queue.tail.toNat < queue.size.toNat + 1) :
    (nvmeQueueEnqueue queue).2.tail.toNat = (queue.tail.toNat + 1) % (queue.size.toNat + 1) := by
  unfold nvmeQueueEnqueue
  split
  next less =>
    rw [lt_def] at less
    rw [Nat.mod_eq_of_lt (show queue.tail.toNat + 1 < queue.size.toNat + 1 by omega)]
    exact Nat.mod_eq_of_lt (by simp; omega)
  next least =>
    rw [lt_def] at least
    have last : queue.tail.toNat = queue.size.toNat := by omega
    rw [last, Nat.mod_self]
    rfl

theorem Orderly.claim (orderly : Orderly s) {id : Nat} {r : Running} (found : s.running id = some r) {k : QueueId}
    (room : (nvmeQueueEnqueue (s.c.dev.cq k)).2.tail ≠ (s.c.dev.cq k).head) :
    Orderly { s with
      c := s.c.setCq k (nvmeQueueEnqueue (s.c.dev.cq k)).2
      running := update s.running id (some { r with slot := some (k, (s.c.dev.cq k).tail) }) } := by
  let running := update s.running id (some { r with slot := some (k, (s.c.dev.cq k).tail) })
  have slots := orderly.slots k
  have tail := nvmeQueueEnqueue_tail slots.tail_in
  have room : ((s.c.dev.cq k).tail.toNat + 1) % ((s.c.dev.cq k).size.toNat + 1) ≠ (s.c.dev.cq k).head.toNat := by
    rw [← tail]
    exact fun same => room (eq_of_toNat_eq same)
  have other {i : Nat} (apart : i ≠ id) {j : QueueId} {t : Nat} (holds : Holds running i j t) :
    Holds s.running i j t :=
    (holds_update_of_ne apart _ j t).mp holds
  have mine {j : QueueId} {t : Nat} (holds : Holds running id j t) : j = k ∧ t = (s.c.dev.cq k).tail.toNat := by
    obtain ⟨r', tail, same, slot, there⟩ := holds_update_self holds
    cases same
    cases slot
    exact ⟨rfl, there.symm⟩
  refine { orderly with slots := ?_, distinct := ?_, cids := ?_ }
  · intro j
    by_cases here : j = k
    · subst here
      rw [setCq_self, tail]
      refine (slots.claim room).release (fun _ => Iff.rfl) ?_
      rintro t ⟨i, holds⟩
      by_cases same : i = id
      · exact .inr (mine (same ▸ holds)).2
      · exact .inl ⟨i, other same holds⟩
    · rw [setCq_of_ne s.c here]
      refine (orderly.slots j).release (fun _ => Iff.rfl) ?_
      rintro t ⟨i, holds⟩
      by_cases same : i = id
      · exact absurd (mine (same ▸ holds)).1 here
      · exact ⟨i, other same holds⟩
  · intro i i' j t first second
    by_cases same : i = id
    · by_cases same' : i' = id
      · rw [same, same']
      · obtain ⟨rfl, rfl⟩ := mine (same ▸ first)
        exact absurd (.inr ⟨i', other same' second⟩) slots.unused
    · by_cases same' : i' = id
      · obtain ⟨rfl, rfl⟩ := mine (same' ▸ second)
        exact absurd (.inr ⟨i, other same first⟩) slots.unused
      · exact orderly.distinct i i' j t (other same first) (other same' second)
  · intro i r' busy
    by_cases same : i = id
    · subst same
      cases (update_self i _ s.running).symm.trans busy
      exact orderly.cids i r found
    · exact orderly.cids i r' ((update_of_ne same _ s.running).symm.trans busy)

theorem claim_orderly (orderly : Orderly s) (id : Nat) (ok : CqOk s (.claim id)) : Orderly (s.claim id) := by
  unfold CqRun.claim
  split
  next q cmd cid found =>
    split
    · exact drop_orderly orderly id
    next k named => exact orderly.claim found (ok _ found k named)
  · exact orderly

theorem writeUint32Le_outside (host : HostMem) {cqe p : Addr} (outside : ¬ p - cqe < 16) (offset : Addr)
    (inside : offset ≤ 12) (val : Reg) : writeUint32Le host (cqe + offset) val p = host p := by
  refine host.write_outside _ ?_
  bv_omega

theorem readUint16Le_writeUint32Le (host : HostMem) (p : Addr) (val : Reg) :
    readUint16Le (writeUint32Le host p val) p = val.setWidth 16 := by
  have low : writeUint32Le host p val p = val.extractLsb' 0 8 := by
    rw [writeUint32Le, HostMem.write_apply, BitVec.sub_self]
    rfl
  have high : writeUint32Le host p val (p + 1) = val.extractLsb' 8 8 := by
    have one : p + 1 - p = 1 := by bv_omega
    rw [writeUint32Le, HostMem.write_apply, one]
    rfl
  rw [readUint16Le, low, high]
  ext i inside
  rw [BitVec.getElem_append]
  split
  next low => simp
  next high =>
    have offset : 8 + (i - 8) = i := by omega
    simp [offset]

/-- What is posted, for a slot that is mapped. -/
theorem nvmePostCqe_host (c : Controller σ) (cmd : NvmeCmd) (k : QueueId) (tail status cs : Reg) {cqe : Addr}
    (mapped : cqeAt c k tail = some cqe) :
    (∀ sqe, Apart sqe cqe →
      readUint16Le (nvmePostCqe ctrl c cmd k tail status cs).machine.host (sqe + 2) =
        readUint16Le c.machine.host (sqe + 2)) ∧
    readUint16Le (nvmePostCqe ctrl c cmd k tail status cs).machine.host (cqe + 12) =
      readUint16Le c.machine.host (cmd.sqe + 2) := by
  have machine (c : Controller σ) (queue : NvmeQueue) : (nvmeQueueRaiseIrq ctrl c queue).machine = c.machine := by
    unfold nvmeQueueRaiseIrq
    split <;> rfl
  unfold nvmePostCqe
  dsimp only
  rw [show c.dmaPtr _ 16 = some cqe from mapped]
  rw [machine]
  dsimp only [Controller.setHost]
  constructor
  · intro sqe apart
    have next : sqe + 2 + 1 = sqe + 3 := by bv_omega
    have first : cqe = cqe + 0 := by bv_omega
    unfold readUint16Le
    rw [next, writeUint32Le_outside _ apart.1 12 (by decide), writeUint32Le_outside _ apart.2 12 (by decide),
      writeUint32Le_outside _ apart.1 8 (by decide), writeUint32Le_outside _ apart.2 8 (by decide), first,
      writeUint32Le_outside _ apart.1 0 (by decide), writeUint32Le_outside _ apart.2 0 (by decide)]
  · rw [readUint16Le_writeUint32Le]
    ext i inside
    simp

theorem Orderly.post (orderly : Orderly s) {id : Nat} {r : Running} (found : s.running id = some r) {k : QueueId}
    {tail : Reg} (slot : r.slot = some (k, tail)) {c : Controller σ} (dev : c.dev = s.c.dev)
    (cids : ∀ other r', other ≠ id → s.running other = some r' →
      readUint16Le c.machine.host (r'.cmd.sqe + 2) = r'.cid) {cid : BitVec 16} (own : cid = r.cid) :
    Orderly { s with
      c := c
      running := update s.running id none
      posts := s.posts ++ [⟨id, cid, r.cid, !s.unread k tail.toNat⟩]
      unread := update s.unread k (update (s.unread k) tail.toNat true) } := by
  have mine : Holds s.running id k tail.toNat := ⟨r, tail, found, slot, rfl⟩
  have released {i : Nat} {j : QueueId} {t : Nat} (holds : Holds (update s.running id none) i j t) :
      i ≠ id ∧ Holds s.running i j t := holds_release (r := none) nofun holds
  refine ⟨?_, ?_, ?_, ?_, ?_⟩
  · intro j
    dsimp only
    rw [dev]
    by_cases here : j = k
    · subst here
      refine ((orderly.slots j).fill ⟨id, mine⟩).release ?_ ?_
      · intro t
        by_cases same : t = tail.toNat <;> simp [same]
      · rintro t ⟨i, holds⟩
        obtain ⟨apart, holds⟩ := released holds
        refine ⟨⟨i, holds⟩, ?_⟩
        rintro rfl
        exact apart (orderly.distinct i id j _ holds mine)
    · rw [update_of_ne here]
      exact (orderly.slots j).release (fun _ => Iff.rfl) fun t ⟨i, holds⟩ => ⟨i, (released holds).2⟩
  · intro i i' j t first second
    exact orderly.distinct i i' j t (released first).2 (released second).2
  · intro other r' busy
    by_cases same : other = id
    · subst same
      cases (update_self other none s.running).symm.trans busy
    · exact cids other r' same ((update_of_ne same none s.running).symm.trans busy)
  · intro p posted
    rcases mem_append.mp posted with before | last
    · exact orderly.free p before
    · rw [mem_singleton.mp last]
      have free := (orderly.slots k).apart _ ⟨id, mine⟩
      simpa using free
  · intro p posted
    rcases mem_append.mp posted with before | last
    · exact orderly.own p before
    · rw [mem_singleton.mp last]
      exact own

theorem post_orderly (orderly : Orderly s) (id : Nat) (status : StatusCode) (cs : Reg)
    (ok : CqOk s (.post id status cs)) : Orderly (s.post ctrl id status cs) := by
  unfold CqRun.post
  split
  next q cmd own k tail found =>
    split
    next unmapped =>
      have same : nvmePostCqe ctrl s.c cmd k tail status.code cs = s.c := by
        unfold nvmePostCqe
        dsimp only
        rw [show s.c.dmaPtr _ 16 = none from unmapped]
      rw [same]
      exact drop_orderly orderly id
    next cqe mapped =>
      obtain ⟨others, entry⟩ := nvmePostCqe_host ctrl s.c cmd k tail status.code cs mapped
      have same := orderly.cids id ⟨q, cmd, own, some (k, tail)⟩ found
      refine orderly.post found rfl (nvmePostCqe_dev ctrl s.c cmd k tail status.code cs) ?_ (entry.trans same)
      intro other r' apart busy
      rw [others r'.cmd.sqe (ok _ k tail cqe found rfl mapped other r' apart busy)]
      exact orderly.cids other r' busy
  · exact orderly

theorem nvmeDoorbell_cq (c : Controller σ) (k : QueueId) (val : BitVec 16) :
    (nvmeDoorbell ctrl c (2 * k.val + 1) val).dev = (c.setCq k { c.dev.cq k with head := val.setWidth 32 }).dev ∧
      (nvmeDoorbell ctrl c (2 * k.val + 1) val).machine = c.machine := by
  have half : nvmeGetQueue ((2 * k.val + 1) / 2) = some k := by
    rw [show (2 * k.val + 1) / 2 = k.val by omega]
    exact dif_pos k.isLt
  unfold nvmeDoorbell
  rw [half]
  dsimp only
  rw [if_pos (by omega)]
  split <;> exact ⟨rfl, rfl⟩

theorem nvmeDoorbell_sq (c : Controller σ) (q : QueueId) (val : BitVec 16) :
    (nvmeDoorbell ctrl c (2 * q.val) val).dev.cq = c.dev.cq ∧
      (nvmeDoorbell ctrl c (2 * q.val) val).machine = c.machine := by
  unfold nvmeDoorbell
  split
  · exact ⟨rfl, rfl⟩
  · rw [if_neg (show ¬ 2 * q.val % 2 = 1 by omega)]
    exact ⟨rfl, rfl⟩

theorem cqDoorbell_orderly (orderly : Orderly s) (k : QueueId) (val : BitVec 16)
    (ok : CqOk s (.cqDoorbell k val)) :
    Orderly (s.cqDoorbell ctrl k val) := by
  obtain ⟨inside, passed⟩ := ok
  obtain ⟨dev, machine⟩ := nvmeDoorbell_cq ctrl s.c k val
  have wide : (val.setWidth 32).toNat = val.toNat := toNat_setWidth_of_le (by decide)
  refine { orderly with slots := ?_, cids := ?_ }
  · intro j
    dsimp only [CqRun.cqDoorbell]
    rw [dev]
    by_cases here : j = k
    · subst here
      rw [setCq_self]
      have next : (val.setWidth 32).toNat < (s.c.dev.cq j).size.toNat + 1 := by omega
      have consumed := (orderly.slots j).consume next fun t small before => passed t (by omega) before
      refine consumed.release ?_ fun _ => id
      intro t
      simp [Consumed]
    · rw [setCq_of_ne s.c here, update_of_ne here]
      exact orderly.slots j
  · dsimp only [CqRun.cqDoorbell]
    rw [machine]
    exact orderly.cids

theorem cqStep_orderly (orderly : Orderly s) (event : CqEvent) (ok : CqOk s event) :
    Orderly (cqStep ctrl s event) := by
  cases event with
  | dequeue q => exact dequeue_orderly orderly q
  | claim id => exact claim_orderly orderly id ok
  | post id status cs => exact post_orderly ctrl orderly id status cs ok
  | cqDoorbell k val => exact cqDoorbell_orderly ctrl orderly k val ok
  | sqDoorbell q val =>
    obtain ⟨cq, machine⟩ := nvmeDoorbell_sq ctrl s.c q val
    exact orderly.of_same cq (congrArg RvvmMachine.host machine)
  | outside after => exact { orderly with cids := ok }

end Steps

theorem start_orderly {σ : Type} {c : Controller σ}
    (idle : ∀ k, (c.dev.cq k).head = (c.dev.cq k).tail ∧ (c.dev.cq k).tail ≤ (c.dev.cq k).size) :
    Orderly (CqRun.start c) where
  slots := by
    intro k
    obtain ⟨same, inside⟩ := idle k
    dsimp only [CqRun.start]
    rw [same]
    refine (Ring.Slots.empty (Nat.lt_succ_of_le (le_def.mp inside))).release (by simp) ?_
    rintro t ⟨id, r, tail, found, -⟩
    cases found
  distinct := fun _ _ _ _ ⟨_, _, found, _⟩ => nomatch found
  cids := fun _ _ found => nomatch found
  free := fun _ posted => nomatch posted
  own := fun _ posted => nomatch posted

theorem start_accounted : Accounted 0 (fun _ => none) [] [] where
  count := fun id => by simp
  later := fun _ _ => ⟨rfl, not_mem_nil⟩
  kept := fun _ _ _ => not_mem_nil

theorem accounted_visited {σ : Type} (ctrl : Pci.Intc σ) (c : Controller σ) (events : List CqEvent) :
    ∀ s ∈ visited (cqStep ctrl) (CqRun.start c) events,
      Accounted s.next s.running s.dropped (s.posts.map Post.id) :=
  @invariant _ _ _ (fun s : CqRun σ => Accounted s.next s.running s.dropped (s.posts.map Post.id)) (fun _ _ => True)
    (fun _ event accounted _ => CqRun.step_accounted ctrl event accounted) _ _ start_accounted
    (.always (fun _ _ => trivial) _ events)

/-- In every interleaving of commands and the host that starts with empty completion queues and
meets the condition, each completion goes to a free slot, once and with the identifier of its
command. -/
theorem completions_delivered {σ : Type} (ctrl : Pci.Intc σ) {c : Controller σ}
    (idle : ∀ k, (c.dev.cq k).head = (c.dev.cq k).tail ∧ (c.dev.cq k).tail ≤ (c.dev.cq k).size)
    {events : List CqEvent} (ok : AllSteps (cqStep ctrl) CqOk (CqRun.start c) events) :
    ∀ s ∈ visited (cqStep ctrl) (CqRun.start c) events, Delivered s := by
  intro s reached
  have orderly : Orderly s := @invariant _ _ _ Orderly _
    (fun _ event orderly => cqStep_orderly ctrl orderly event) _ _ (start_orderly idle) ok s reached
  have accounted := accounted_visited ctrl c events s reached
  refine ⟨orderly.free, orderly.own, ?_⟩
  intro id old done kept
  rw [accounted.count id, if_pos ⟨old, done, kept⟩]

def abortCommands : HostMem := fun p =>
  match p.toNat with
  | 0x1000 => 0x08 | 0x1002 => 0x01
  | 0x1040 => 0x08 | 0x1042 => 0x02
  | 0x1080 => 0x08 | 0x1082 => 0x03
  | _ => 0

def twoSlots : CqRun (Nat → Bool) :=
  CqRun.start (final (nvmeStep wires) (newController abortCommands)
    [.pciWrite 0x24 0x0001000F, .pciWrite 0x28 0x1000, .pciWrite 0x30 0x2000])

/-- Two submission queues share completion queue 1. -/
def sharedQueues : Controller (Nat → Bool) :=
  let c := (newController abortCommands).setCq 1 (nvmeQueueSetup 0x2000 3 1)
  (c.setSq 1 (nvmeQueueSetup 0x1000 3 1)).setSq 2 (nvmeQueueSetup 0x3000 3 1)

/-- The second command claims the first slot, and the host takes its entry before the other is
posted. -/
def sharedEvents : List CqEvent :=
  [.sqDoorbell 1 1, .sqDoorbell 2 1, .dequeue 1, .dequeue 2, .claim 1, .claim 0, .post 1 .success 0, .cqDoorbell 1 1,
    .post 0 .success 0]

def sharedRun (n : Nat) : CqRun (Nat → Bool) :=
  final (cqStep wires) (CqRun.start sharedQueues) (sharedEvents.take n)

theorem sharedRun_claim (n id : Nat) (own : ((sharedRun n).running id).map (fun r => r.cmd.cqId) = some 1)
    (room : (nvmeQueueEnqueue ((sharedRun n).c.dev.cq 1)).2.tail ≠ ((sharedRun n).c.dev.cq 1).head) :
    CqOk (sharedRun n) (.claim id) := by
  intro r found k named
  rw [found, Option.map_some, Option.some.injEq] at own
  rw [own] at named
  cases named
  exact room

theorem sharedRun_post (n id other : Nat) (tail : Reg) (entry : Addr)
    (both : ∀ i < (sharedRun n).next, i = id ∨ i = other)
    (slot : ((sharedRun n).running id).bind Running.slot = some (1, tail))
    (mapped : cqeAt (sharedRun n).c 1 tail = some entry)
    (apart : ∀ sqe, ((sharedRun n).running other).map (fun r => r.cmd.sqe) = some sqe → Apart sqe entry) :
    CqOk (sharedRun n) (.post id .success 0) := by
  intro r k tail' cqe found held there i r' differs busy
  have started := (accounted_visited wires sharedQueues _ _ (final_mem_visited _ _)).started busy
  obtain rfl : i = other := (both i started).resolve_left differs
  rw [found, Option.bind_some, held] at slot
  cases slot
  cases there.symm.trans mapped
  exact apart _ (by rw [busy, Option.map_some])

theorem completions_delivered_shared :
    ((∀ k, (sharedQueues.dev.cq k).head = (sharedQueues.dev.cq k).tail ∧
        (sharedQueues.dev.cq k).tail ≤ (sharedQueues.dev.cq k).size) ∧
      AllSteps (cqStep wires) CqOk (CqRun.start sharedQueues) sharedEvents) ∧
    ((final (cqStep wires) (CqRun.start sharedQueues) sharedEvents).posts.map fun p => (p.id, p.cid)) =
      [(1, 0), (0, 1)] ∧
    ∀ s ∈ visited (cqStep wires) (CqRun.start sharedQueues) sharedEvents, Delivered s := by
  have idle : ∀ k, (sharedQueues.dev.cq k).head = (sharedQueues.dev.cq k).tail ∧
      (sharedQueues.dev.cq k).tail ≤ (sharedQueues.dev.cq k).size := by decide +kernel
  have first : CqOk (sharedRun 4) (.claim 1) := sharedRun_claim 4 1 (by decide +kernel) (by decide +kernel)
  have second : CqOk (sharedRun 5) (.claim 0) := sharedRun_claim 5 0 (by decide +kernel) (by decide +kernel)
  have early : CqOk (sharedRun 6) (.post 1 .success 0) := by
    refine sharedRun_post 6 1 0 0 0x2000 ?_ (by decide +kernel) (by decide +kernel) ?_
    · rw [show (sharedRun 6).next = 2 by decide +kernel]
      omega
    · rw [show ((sharedRun 6).running 0).map (fun r => r.cmd.sqe) = some 0x1000 by decide +kernel]
      intro sqe own
      cases own
      decide
  have taken : CqOk (sharedRun 7) (.cqDoorbell 1 1) := by
    refine ⟨by decide +kernel, ?_⟩
    unfold Consumed
    rw [show ((sharedRun 7).c.dev.cq 1).size = 3 by decide +kernel,
      show ((sharedRun 7).c.dev.cq 1).head = 0 by decide +kernel]
    intro slot inside passed
    obtain rfl : slot = 0 := by
      revert slot
      decide
    decide +kernel
  have late : CqOk (sharedRun 8) (.post 0 .success 0) := by
    refine sharedRun_post 8 0 1 1 0x2010 ?_ (by decide +kernel) (by decide +kernel) ?_
    · rw [show (sharedRun 8).next = 2 by decide +kernel]
      omega
    · rw [Option.isNone_iff_eq_none.mp (show ((sharedRun 8).running 1).isNone = true by decide +kernel)]
      rintro sqe absent
      cases absent
  have ok : AllSteps (cqStep wires) CqOk (CqRun.start sharedQueues) sharedEvents :=
    ⟨trivial, trivial, trivial, trivial, first, second, early, taken, late, trivial⟩
  exact ⟨⟨idle, ok⟩, by decide +kernel, completions_delivered wires idle ok⟩

def overrun : CqRun (Nat → Bool) :=
  final (cqStep wires) twoSlots [.sqDoorbell 0 3, .dequeue 0, .dequeue 0, .dequeue 0, .claim 0, .post 0 .success 1,
    .claim 1, .post 1 .success 1, .claim 2, .post 2 .success 1]

/-- The host puts a new command into the slot of one that was dequeued. -/
def reused : CqRun (Nat → Bool) :=
  final (cqStep wires) twoSlots [.sqDoorbell 0 1, .dequeue 0,
    .outside ⟨fun _ => 0, update abortCommands 0x1002 9, emptyBlk⟩, .claim 0, .post 0 .success 1]

/-- The third completion overwrites the first, which was not read. A command whose slot is used
again completes with the identifier of another. -/
theorem completion_overwritten :
    overrun.posts.map Post.free = [true, true, false] ∧
      reused.posts.map (fun p => (p.own, p.cid)) = [(1, 9)] :=
  ⟨by decide +kernel, by decide +kernel⟩

end Rvvm.Nvme
