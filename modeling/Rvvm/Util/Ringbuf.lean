import Rvvm.Library.Slices
import Rvvm.Library.Simulation
import Rvvm.Library.Runs
import Rvvm.Machine.Host

/-! The ring buffer of `ringbuf.c`, kept as a write position and a fill count, and that it is a bounded queue
of bytes. -/
namespace Rvvm
open List Nat Runs Slices

/-- `ringbuf_t`. The write position may stand at the end of the storage. -/
structure Ringbuf where
  data : Nat → Byte
  size : Nat
  start : Nat
  consumed : Nat
  start_le : start ≤ size
  consumed_le : consumed ≤ size

/-- The part of the storage a `memcpy` reads or writes. -/
structure RingCopy where
  off : Nat
  len : Nat
  deriving DecidableEq

def ringbufCreate (size : Nat) : Ringbuf where
  data := fun _ => 0
  size := size
  start := 0
  consumed := 0
  start_le := zero_le size
  consumed_le := zero_le size

def ringbufSpace (rb : Ringbuf) : Nat := rb.size - rb.consumed

def ringbufAvail (rb : Ringbuf) : Nat := rb.consumed

def ringbufSkip (rb : Ringbuf) (len : Nat) : Nat × Ringbuf :=
  let skip := min len rb.consumed
  (skip, { rb with
    consumed := rb.consumed - skip
    consumed_le := le_trans (sub_le _ _) rb.consumed_le })

def ringbufGetReadStart (rb : Ringbuf) : Nat :=
  if rb.consumed > rb.start then rb.size - rb.consumed + rb.start else rb.start - rb.consumed

/-- The bytes copied out; their number is what the function returns. -/
def ringbufPeek (rb : Ringbuf) (len : Nat) : List Byte × List RingCopy :=
  let start := ringbufGetReadStart rb
  let ret := min rb.consumed len
  let lhalfLen := min (rb.size - start) ret
  if ret > lhalfLen then
    let rhalfLen := ret - lhalfLen
    (load rb.data start lhalfLen ++ load rb.data 0 rhalfLen, [⟨start, lhalfLen⟩, ⟨0, rhalfLen⟩])
  else (load rb.data start lhalfLen, [⟨start, lhalfLen⟩])

def ringbufRead (rb : Ringbuf) (len : Nat) : List Byte × List RingCopy × Ringbuf :=
  let (bytes, copies) := ringbufPeek rb len
  (bytes, copies, (ringbufSkip rb bytes.length).2)

def ringbufWrite (rb : Ringbuf) (src : List Byte) : Nat × List RingCopy × Ringbuf :=
  let ret := min (rb.size - rb.consumed) src.length
  let lhalfLen := min (rb.size - rb.start) ret
  let data := store rb.data rb.start (src.take lhalfLen)
  have filled : rb.consumed + ret ≤ rb.size := by have := rb.consumed_le; omega
  if wraps : ret > lhalfLen then
    let rhalfLen := ret - lhalfLen
    (ret, [⟨rb.start, lhalfLen⟩, ⟨0, rhalfLen⟩],
      { rb with
        data := store data 0 ((src.drop lhalfLen).take rhalfLen)
        start := rhalfLen
        consumed := rb.consumed + ret
        start_le := by omega
        consumed_le := filled })
  else
    (ret, [⟨rb.start, lhalfLen⟩],
      { rb with
        data := data
        start := rb.start + ret
        consumed := rb.consumed + ret
        start_le := by have := rb.start_le; omega
        consumed_le := filled })

def ringbufGet (rb : Ringbuf) (len : Nat) : Option (List Byte) × List RingCopy × Ringbuf :=
  if len ≤ ringbufAvail rb then
    let (bytes, copies, rb) := ringbufRead rb len
    (some bytes, copies, rb)
  else (none, [], rb)

def ringbufPut (rb : Ringbuf) (src : List Byte) : Bool × List RingCopy × Ringbuf :=
  if src.length ≤ ringbufSpace rb then (true, (ringbufWrite rb src).2)
  else (false, [], rb)

/-! Calls and what they answer. -/

inductive RingOp
  | write (src : List Byte)
  | put (src : List Byte)
  | read (len : Nat)
  | get (len : Nat)
  | peek (len : Nat)
  | skip (len : Nat)

inductive RingAnswer
  | count (n : Nat)
  | accepted (ok : Bool)
  | bytes (out : List Byte)
  | got (out : Option (List Byte))
  deriving DecidableEq

namespace RingOp

def run (rb : Ringbuf) : RingOp → RingAnswer × List RingCopy × Ringbuf
  | write src => (.count (ringbufWrite rb src).1, (ringbufWrite rb src).2)
  | put src => (.accepted (ringbufPut rb src).1, (ringbufPut rb src).2)
  | read len => (.bytes (ringbufRead rb len).1, (ringbufRead rb len).2)
  | get len => (.got (ringbufGet rb len).1, (ringbufGet rb len).2)
  | peek len => (.bytes (ringbufPeek rb len).1, (ringbufPeek rb len).2, rb)
  | skip len => (.count (ringbufSkip rb len).1, [], (ringbufSkip rb len).2)

def step (rb : Ringbuf) (op : RingOp) : RingAnswer × Ringbuf := ((op.run rb).1, (op.run rb).2.2)

/-- A queue of at most `capacity` bytes, oldest first. -/
def fifo (capacity : Nat) (queue : List Byte) : RingOp → RingAnswer × List Byte
  | write src =>
    (.count (src.take (capacity - queue.length)).length, queue ++ src.take (capacity - queue.length))
  | put src =>
    if queue.length + src.length ≤ capacity then (.accepted true, queue ++ src) else (.accepted false, queue)
  | read len => (.bytes (queue.take len), queue.drop len)
  | get len => if len ≤ queue.length then (.got (some (queue.take len)), queue.drop len) else (.got none, queue)
  | peek len => (.bytes (queue.take len), queue)
  | skip len => (.count (queue.take len).length, queue.drop len)

end RingOp

/-! The queue a buffer holds. -/

namespace Ringbuf

def unread (rb : Ringbuf) : List Byte :=
  (range rb.consumed).map fun i => rb.data (wrap rb.size (ringbufGetReadStart rb + i))

@[simp] theorem length_unread (rb : Ringbuf) : rb.unread.length = rb.consumed := by
  rw [unread, length_map, length_range]

@[simp] theorem getElem_unread (rb : Ringbuf) {i : Nat} (inside : i < rb.unread.length) :
    rb.unread[i] = rb.data (wrap rb.size (ringbufGetReadStart rb + i)) := by
  simp [unread]

end Ringbuf

variable (rb : Ringbuf)

theorem ringbufGetReadStart_le : ringbufGetReadStart rb ≤ rb.size := by
  have start_le := rb.start_le
  unfold ringbufGetReadStart
  split <;> omega

/-- Counted from the write position, the unread bytes are the last ones of a full turn. -/
theorem wrap_readStart {i : Nat} (inside : i < rb.size) :
    wrap rb.size (ringbufGetReadStart rb + i) =
      wrap rb.size (rb.start + if i < rb.consumed then rb.size - rb.consumed + i else i - rb.consumed) := by
  have start_le := rb.start_le
  unfold ringbufGetReadStart wrap
  split_ifs <;> omega

theorem ringbufPeek_bytes (len : Nat) : (ringbufPeek rb len).1 = rb.unread.take len := by
  have parts : _ = (range (min rb.consumed len)).map _ := load_wrap rb.data (ringbufGetReadStart_le rb)
  have shorter : rb.unread.take len =
      (range (min rb.consumed len)).map fun i => rb.data (wrap rb.size (ringbufGetReadStart rb + i)) := by
    rw [Ringbuf.unread, ← map_take, take_range, min_comm]
  rw [shorter, ← parts]
  unfold ringbufPeek
  dsimp only
  split
  case isTrue => rfl
  case isFalse whole =>
    have none : min rb.consumed len - min (rb.size - ringbufGetReadStart rb) (min rb.consumed len) = 0 := by omega
    rw [none, load_zero, append_nil]

theorem ringbufSkip_unread (len : Nat) : (ringbufSkip rb len).2.unread = rb.unread.drop len := by
  have consumed_le := rb.consumed_le
  apply ext_getElem
  · simp only [ringbufSkip, Ringbuf.length_unread, length_drop]
    omega
  · intro i left right
    rw [length_drop, Ringbuf.length_unread] at right
    rw [getElem_drop, Ringbuf.getElem_unread, Ringbuf.getElem_unread]
    change rb.data _ = rb.data _
    congr 1
    unfold ringbufGetReadStart ringbufSkip wrap
    dsimp only
    split_ifs <;> omega

section
variable (src : List Byte)
include src

theorem ringbufWrite_data :
    (ringbufWrite rb src).2.2.data =
      let taken := src.take (min (rb.size - rb.consumed) src.length)
      store (store rb.data rb.start (taken.take (min (rb.size - rb.start) taken.length))) 0
        (taken.drop (min (rb.size - rb.start) taken.length)) := by
  unfold ringbufWrite
  have length : (src.take (min (rb.size - rb.consumed) src.length)).length = min
    (rb.size - rb.consumed) src.length := by
    rw [length_take]
    omega
  dsimp only
  rw [length, take_take, drop_take]
  split
  case isTrue => rw [min_eq_left (min_le_right _ _)]
  case isFalse whole =>
    have none : min (rb.size - rb.consumed) src.length -
      min (rb.size - rb.start) (min (rb.size - rb.consumed) src.length) = 0 := by omega
    rw [none, take_zero, store_nil, min_eq_left (min_le_right _ _)]

theorem ringbufWrite_size : (ringbufWrite rb src).2.2.size = rb.size := by
  unfold ringbufWrite
  dsimp only
  split <;> rfl

theorem ringbufWrite_consumed :
    (ringbufWrite rb src).2.2.consumed = rb.consumed + min (rb.size - rb.consumed) src.length := by
  unfold ringbufWrite
  dsimp only
  split <;> rfl

theorem ringbufWrite_readStart {i : Nat} (inside : i < (ringbufWrite rb src).2.2.consumed) :
    wrap rb.size (ringbufGetReadStart (ringbufWrite rb src).2.2 + i) =
      wrap rb.size (ringbufGetReadStart rb + i) := by
  have start_le := rb.start_le
  unfold ringbufWrite at inside ⊢
  dsimp only at inside ⊢
  unfold ringbufGetReadStart wrap
  split at inside
  case isTrue more =>
    dsimp only at inside ⊢
    rw [dif_pos more]
    dsimp only
    split_ifs <;> omega
  case isFalse whole =>
    rw [dif_neg whole]
    dsimp only
    split_ifs <;> omega

theorem ringbufWrite_unread :
    (ringbufWrite rb src).2.2.unread = rb.unread ++ src.take (rb.size - rb.consumed) := by
  have consumed_le := rb.consumed_le
  have consumed := ringbufWrite_consumed rb src
  apply ext_getElem
  · rw [length_append, Ringbuf.length_unread, Ringbuf.length_unread, length_take, consumed]
  · intro i left right
    rw [Ringbuf.length_unread] at left
    rw [Ringbuf.getElem_unread, ringbufWrite_size, ringbufWrite_readStart rb src left, ringbufWrite_data,
      wrap_readStart rb (by omega)]
    have short : (src.take (min (rb.size - rb.consumed) src.length)).length ≤ rb.size := by
      rw [length_take]
      omega
    rw [store_wrap rb.data rb.start_le short (by split <;> omega)]
    by_cases old : i < rb.consumed
    · rw [if_pos old, getElem?_eq_none (by rw [length_take]; omega), Option.getD_none,
        getElem_append_left (by rwa [Ringbuf.length_unread]), Ringbuf.getElem_unread,
        wrap_readStart rb (by omega), if_pos old]
    · rw [if_neg old, getElem?_eq_getElem (by rw [length_take]; omega), Option.getD_some,
        getElem_append_right (by rw [Ringbuf.length_unread]; omega), getElem_take, getElem_take]
      congr 1
      rw [Ringbuf.length_unread]

end

/-! Every call does to the queue what it would do to a list. -/

theorem ringbufRead_bytes (len : Nat) : (ringbufRead rb len).1 = rb.unread.take len := ringbufPeek_bytes rb len

theorem ringbufRead_unread (len : Nat) : (ringbufRead rb len).2.2.unread = rb.unread.drop len := by
  change (ringbufSkip rb (ringbufPeek rb len).1.length).2.unread = _
  rw [ringbufPeek_bytes, ringbufSkip_unread, length_take]
  by_cases short : len ≤ rb.unread.length
  · rw [min_eq_left short]
  · have past := Nat.le_of_not_le short
    rw [min_eq_right past, drop_length, drop_eq_nil_of_le past]

/-- The buffer holds the queue. -/
structure HoldsQueue (capacity : Nat) (rb : Ringbuf) (queue : List Byte) : Prop where
  size : rb.size = capacity
  unread : rb.unread = queue

variable {rb}

theorem ringbuf_forward (capacity : Nat) :
    Simulation.Forward RingOp.step (RingOp.fifo capacity) (HoldsQueue capacity) := by
  rintro rb queue op ⟨rfl, rfl⟩
  have length := rb.length_unread
  have bound := rb.consumed_le
  cases op with
  | write src =>
    refine ⟨?_, ringbufWrite_size rb src, ?_⟩
    · have count : (ringbufWrite rb src).1 = min (rb.size - rb.consumed) src.length := by
        unfold ringbufWrite
        dsimp only
        split <;> rfl
      simp [RingOp.step, RingOp.run, RingOp.fifo, count, length]
    · simp only [RingOp.step, RingOp.run, RingOp.fifo, length]
      exact ringbufWrite_unread rb src
  | put src =>
    have space : ringbufSpace rb = rb.size - rb.consumed := rfl
    simp only [RingOp.step, RingOp.run, RingOp.fifo, ringbufPut, length]
    by_cases fits : src.length ≤ ringbufSpace rb
    · rw [if_pos fits, if_pos (by omega)]
      refine ⟨rfl, ringbufWrite_size rb src, ?_⟩
      rw [ringbufWrite_unread, ← space, take_of_length_le fits]
    · rw [if_neg fits, if_neg (by omega)]
      exact ⟨rfl, rfl, rfl⟩
  | read len => exact ⟨congrArg RingAnswer.bytes (ringbufRead_bytes rb len), rfl, ringbufRead_unread rb len⟩
  | get len =>
    simp only [RingOp.step, RingOp.run, RingOp.fifo, ringbufGet, length]
    by_cases enough : len ≤ ringbufAvail rb
    · rw [if_pos enough, if_pos (show len ≤ rb.consumed from enough)]
      exact ⟨congrArg (RingAnswer.got ∘ some) (ringbufRead_bytes rb len), rfl, ringbufRead_unread rb len⟩
    · rw [if_neg enough, if_neg (show ¬ len ≤ rb.consumed from enough)]
      exact ⟨rfl, rfl, rfl⟩
  | peek len => exact ⟨congrArg RingAnswer.bytes (ringbufPeek_bytes rb len), rfl, rfl⟩
  | skip len =>
    refine ⟨?_, rfl, ringbufSkip_unread rb len⟩
    simp [RingOp.step, RingOp.run, RingOp.fifo, ringbufSkip, length]

/-- The copies of a call stay within the storage. -/
def CopiesInside (size : Nat) (copies : List RingCopy) : Prop := ∀ copy ∈ copies, copy.off + copy.len ≤ size

theorem copiesInside_one {size off len : Nat} (inside : off + len ≤ size) : CopiesInside size [⟨off, len⟩] := by
  intro copy member
  rw [mem_singleton.mp member]
  exact inside

theorem copiesInside_two {size off len rest : Nat} (first : off + len ≤ size) (second : rest ≤ size) :
    CopiesInside size [⟨off, len⟩, ⟨0, rest⟩] := by
  intro copy member
  rcases mem_cons.mp member with rfl | member
  · exact first
  · rw [mem_singleton.mp member]
    exact (zero_add rest).symm ▸ second

theorem ringbufPeek_inside (rb : Ringbuf) (len : Nat) : CopiesInside rb.size (ringbufPeek rb len).2 := by
  have start := ringbufGetReadStart_le rb
  have consumed_le := rb.consumed_le
  unfold ringbufPeek
  dsimp only
  split
  · exact copiesInside_two (by omega) (by omega)
  · exact copiesInside_one (by omega)

theorem ringbufWrite_inside (rb : Ringbuf) (src : List Byte) : CopiesInside rb.size (ringbufWrite rb src).2.1 := by
  have start_le := rb.start_le
  unfold ringbufWrite
  dsimp only
  split
  · exact copiesInside_two (by omega) (by omega)
  · exact copiesInside_one (by omega)

theorem RingOp.run_inside (rb : Ringbuf) (op : RingOp) : CopiesInside rb.size (op.run rb).2.1 := by
  have nothing : CopiesInside rb.size [] := nofun
  cases op with
  | write src => exact ringbufWrite_inside rb src
  | put src =>
    dsimp only [RingOp.run, ringbufPut]
    split
    · exact ringbufWrite_inside rb src
    · exact nothing
  | read len | peek len => exact ringbufPeek_inside rb len
  | get len =>
    dsimp only [RingOp.run, ringbufGet]
    split
    · exact ringbufPeek_inside rb len
    · exact nothing
  | skip len => exact nothing

/-- From an empty buffer, every list of calls is answered as a queue of that capacity answers it and leaves the
bytes the queue holds; all of the storage is either free or unread, and no copy leaves it. -/
theorem ringbuf_refines_fifo (capacity : Nat) (ops : List RingOp) :
    Simulation.outputs RingOp.step (ringbufCreate capacity) ops =
        Simulation.outputs (RingOp.fifo capacity) [] ops ∧
      (Simulation.last RingOp.step (ringbufCreate capacity) ops).unread =
        Simulation.last (RingOp.fifo capacity) [] ops ∧
      ∀ rb ∈ visited (fun rb op => (RingOp.step rb op).2) (ringbufCreate capacity) ops,
        ringbufSpace rb + ringbufAvail rb = capacity ∧ ∀ op : RingOp, CopiesInside capacity (op.run rb).2.1 := by
  have start : HoldsQueue capacity (ringbufCreate capacity) [] := ⟨rfl, rfl⟩
  refine ⟨(ringbuf_forward capacity).outputs_eq start ops, ((ringbuf_forward capacity).last start ops).unread, ?_⟩
  intro rb reached
  have size : rb.size = capacity := by
    have keeps (rb : Ringbuf) (op : RingOp) (same : rb.size = capacity) (_ : True) :
        (RingOp.step rb op).2.size = capacity := ((ringbuf_forward capacity) rb _ op ⟨same, rfl⟩).2.size
    exact invariant keeps rfl (.always (fun _ _ => trivial) _ ops) rb reached
  refine ⟨?_, fun op => ?_⟩
  · have bound := rb.consumed_le
    simp only [ringbufSpace, ringbufAvail]
    omega
  · rw [← size]
    exact op.run_inside rb

def wrappingCalls : List RingOp := [.write [1, 2, 3], .read 2, .write [4, 5, 6], .peek 8]

theorem ringbuf_refines_fifo_wrapping :
    let rb := (RingOp.step (ringbufCreate 4) (.write [1, 2, 3])).2
    rb ∈ visited (fun rb op => (RingOp.step rb op).2) (ringbufCreate 4) wrappingCalls ∧
      ringbufSpace rb + ringbufAvail rb = 4 ∧
      Simulation.outputs RingOp.step (ringbufCreate 4) wrappingCalls =
        [.count 3, .bytes [1, 2], .count 3, .bytes [3, 4, 5, 6]] := by
  intro rb
  have refines := ringbuf_refines_fifo 4 wrappingCalls
  have reached : rb ∈ visited (fun rb op => (RingOp.step rb op).2) (ringbufCreate 4) wrappingCalls :=
    mem_cons_of_mem _ mem_cons_self
  exact ⟨reached, (refines.2.2 rb reached).1, refines.1.trans (by decide)⟩

end Rvvm
