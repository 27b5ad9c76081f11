import Rvvm.Devices.Ata
import Rvvm.Devices.Nvme
import Rvvm.Library.BitWords

/-! Bus-master DMA of the ATA drive. The transfer follows a list of Physical Region Descriptors (PRDs) in guest
memory until its end mark; the sector count is looked at once it is over. -/
namespace Rvvm.Ata
open BitWords Function List Nat Slices
open BitVec hiding append_assoc
open BitVec (ofNat)
open Nvme (PciFunc pciGetDmaPtr)

/-- A byte that goes from the disk to host memory, or the other way. -/
structure AtaMove where
  off : Nat
  ptr : Addr
  toMem : Bool
  deriving DecidableEq

def pointers (buffer : Addr) (len : Nat) : List Addr := (range len).map fun k => buffer + ofNat 64 k

/-- Consecutive disk bytes and the pointers they go with. -/
def movesFrom (off : Nat) (toMem : Bool) (ptrs : List Addr) : List AtaMove :=
  ptrs.mapIdx fun k ptr => ⟨off + k, ptr, toMem⟩

/-- `moves` records what the transfers do. -/
structure PrdtRun where
  blk : Option BlkDisk
  host : HostMem
  processed : Nat
  moves : List AtaMove

def prdBufSize (prdSectcount : BitVec 32) : Nat :=
  if prdSectcount &&& 0xFFFF = 0 then 0x10000 else (prdSectcount &&& 0xFFFF).toNat

/-- The transfer of one buffer, and how much of it was moved. -/
def prdtMove (cb : BlkBackend) (isRead : Bool) (buffer : Addr) (size : Nat) (r : PrdtRun) : Nat × PrdtRun :=
  let off := r.blk.elim 0 fun d => d.head.toNat
  if isRead then
    let (bytes, blk) := readHead cb r.blk size
    (bytes.length,
      { r with
        blk
        host := r.host.write buffer (fun i => bytes.getD i.toNat 0) (ofNat 64 bytes.length)
        moves := r.moves ++ movesFrom off true (pointers buffer bytes.length) })
  else
    let (ret, blk) := writeHead cb r.blk ((pointers buffer size).map r.host)
    (ret, { r with blk, moves := r.moves ++ movesFrom off false (pointers buffer ret) })

section Table
variable (cb : BlkBackend) (f : PciFunc) (prdtAddr : BitVec 32) (words : Nat → BitVec 32 × BitVec 32)

/-- The loop of `ata_process_prdt`. Guest memory is shared with the harts, so the two words of an entry are
those its round finds there. -/
def ataPrdtLoop (isRead : Bool) : Nat → Nat → PrdtRun → PrdtRun
  | 0, _, r => r
  | rounds + 1, i, r =>
    match pciGetDmaPtr f (prdtAddr.setWidth 64 + ofNat 64 (8 * i)) 8 with
    | none => r
    | some _ =>
      let (prdPhysaddr, prdSectcount) := words i
      let bufSize := prdBufSize prdSectcount
      match pciGetDmaPtr f (prdPhysaddr.setWidth 64) bufSize with
      | none => r
      | some buffer =>
        let (moved, r) := prdtMove cb isRead buffer bufSize r
        if moved ≠ bufSize then r
        else
          let r := { r with processed := r.processed + bufSize }
          if prdSectcount.getLsbD 31 then r else ataPrdtLoop isRead rounds (i + 1) r

def ataBmdmaCommandDma : BitVec 32 := 0x01
def ataBmdmaCommandRead : BitVec 32 := 0x08
def ataBmdmaStatusIrq : BitVec 32 := 0x04
def ataBmdmaStatusErr : BitVec 32 := 0x02
def ataBmdmaStatusDma : BitVec 32 := 0x01

def ataPrdtMaxEntries : Nat := 0x10000

def ataProcessPrdt (host : HostMem) (ata : AtaDev) : AtaDev × HostMem × List AtaMove :=
  let isRead := ata.bmdmaCommand &&& ataBmdmaCommandRead != 0
  let toProcess := ata.sectcount.toNat <<< 9
  let r := ataPrdtLoop cb f ata.prdtAddr words isRead ataPrdtMaxEntries 0 ⟨ata.blk, host, 0, []⟩
  let status := if r.processed = toProcess then ataBmdmaStatusIrq else ataBmdmaStatusIrq ||| ataBmdmaStatusErr
  (ataSendInterrupt { ata with blk := r.blk, bmdmaCommand := 0, bmdmaStatus := status }, r.host, r.moves)

end Table

/-- The bus-master registers; the flag is set when a transfer is started. -/
def ataPciBmdmaWrite (ata : AtaDev) (offset : Nat) (data : OpData) : AtaDev × Bool :=
  let byte := (data.1.headD 0).setWidth 32
  match offset with
  | 0 =>
    let prev := ata.bmdmaCommand &&& ataBmdmaCommandDma
    ({ ata with bmdmaCommand := prev ||| byte },
      byte &&& ataBmdmaCommandDma != 0 && prev &&& ataBmdmaCommandDma == 0)
  | 2 =>
    ({ ata with
        bmdmaStatus := ata.bmdmaStatus &&& ~~~ (byte &&& (ataBmdmaStatusDma ||| ataBmdmaStatusIrq)) }, false)
  | 4 => ({ ata with prdtAddr := readUint32Le (fun p => data.1.getD p.toNat 0) 0 }, false)
  | _ => (ata, false)

/-- READ DMA or WRITE DMA for `nsect` sectors at `lba`, and the transfer the byte `start` begins. -/
def ataDma (cb : BlkBackend) (f : PciFunc) (words : Nat → BitVec 32 × BitVec 32) (host : HostMem) (ata : AtaDev)
    (lba : BitVec 28) (nsect : Byte) (read : Bool) (start : Byte) : Option (AtaDev × HostMem × List AtaMove) :=
  let ata := ataDataWrite cb (ataAddress lba nsect cb ata) (ataReg 7) (single (if read then 0xC8 else 0xCA))
  let (ata, starts) := ataPciBmdmaWrite ata 0 (single start)
  if starts then some (ataProcessPrdt cb f words host ata) else none

/-! What is expected of a transfer. -/

/-- The buffers the table names, up to its end mark or to an address out of reach. -/
def prdBuffers (f : PciFunc) (prdtAddr : BitVec 32) (words : Nat → BitVec 32 × BitVec 32) :
    Nat → Nat → List (Addr × Nat)
  | 0, _ => []
  | rounds + 1, i =>
    if (pciGetDmaPtr f (prdtAddr.setWidth 64 + ofNat 64 (8 * i)) 8).isSome then
      match pciGetDmaPtr f ((words i).1.setWidth 64) (prdBufSize (words i).2) with
      | none => []
      | some buffer =>
        (buffer, prdBufSize (words i).2) ::
          if (words i).2.getLsbD 31 then [] else prdBuffers f prdtAddr words rounds (i + 1)
    else []

def concatenation (buffers : List (Addr × Nat)) : List Addr := buffers.flatMap fun b => pointers b.1 b.2

def AtaMove.replay (s : HostMem × (Nat → Byte)) (m : AtaMove) : HostMem × (Nat → Byte) :=
  if m.toMem then (update s.1 m.ptr (s.2 m.off), s.2)
  else (s.1, update s.2 m.off (s.1 m.ptr))

/-- A transfer of `n` sectors from `first` on keeps to them, moves their bytes in order and tells whether it
moved them all. -/
structure DmaLawful (read : Bool) (first n : Nat) (buffers : List (Addr × Nat)) (host : HostMem)
    (image : Nat → Byte) (result : AtaDev × HostMem × List AtaMove) : Prop where
  confined : ∀ move ∈ result.2.2, first * 512 ≤ move.off ∧ move.off < (first + n) * 512
  ordered : result.2.2 = movesFrom (first * 512) read ((concatenation buffers).take result.2.2.length)
  made : (result.2.1, imageOf result.1.blk) = result.2.2.foldl AtaMove.replay (host, image)
  status : result.1.bmdmaStatus &&& ataBmdmaStatusErr = 0 ↔
    ∀ k < n * 512, first * 512 + k ∈ result.2.2.map AtaMove.off

/-- Every buffer that gets a transfer goes the way of the command, and ends within the `left` bytes of the
sectors unless the disk stops before that. -/
def PrdsFit (agrees : Prop) (served : Nat → Nat → Nat) : Nat → Nat → List Nat → Prop
  | _, _, [] => True
  | off, left, size :: rest =>
    (0 < served off size → agrees ∧ (size ≤ left ∨ served off size < left)) ∧
      (served off size = size → PrdsFit agrees served (off + size) (left - size) rest)

section Moves
variable {off : Nat} {toMem : Bool}

theorem length_pointers (buffer : Addr) (len : Nat) : (pointers buffer len).length = len := by
  simp [pointers]

theorem length_movesFrom (ptrs : List Addr) : (movesFrom off toMem ptrs).length = ptrs.length := length_mapIdx

theorem movesFrom_append (xs ys : List Addr) :
    movesFrom off toMem (xs ++ ys) = movesFrom off toMem xs ++ movesFrom (off + xs.length) toMem ys := by
  unfold movesFrom
  rw [mapIdx_append]
  simp [add_assoc, add_comm xs.length]

theorem map_off_movesFrom (ptrs : List Addr) :
    (movesFrom off toMem ptrs).map AtaMove.off = (range ptrs.length).map (off + ·) := by
  apply ext_getElem
  · simp [movesFrom]
  · intro k _ _
    simp [movesFrom]

theorem map_toMem_movesFrom (ptrs : List Addr) :
    (movesFrom off toMem ptrs).map AtaMove.toMem = replicate ptrs.length toMem := by
  apply ext_getElem
  · simp [movesFrom]
  · intro k _ _
    simp [movesFrom]

theorem take_pointers (buffer : Addr) {len size : Nat} (short : len ≤ size) :
    (pointers buffer size).take len = pointers buffer len := by
  unfold pointers
  rw [← map_take, take_range, min_eq_left short]

theorem pointers_succ (buffer : Addr) (len : Nat) :
    pointers buffer (len + 1) = pointers buffer len ++ [buffer + ofNat 64 len] := by
  unfold pointers
  rw [range_succ, map_append]
  rfl

theorem movesFrom_succ (buffer : Addr) (len : Nat) :
    movesFrom off toMem (pointers buffer (len + 1)) =
      movesFrom off toMem (pointers buffer len) ++ [⟨off + len, buffer + ofNat 64 len, toMem⟩] := by
  rw [pointers_succ, movesFrom_append, length_pointers]
  rfl

variable {len : Nat}

theorem write_succ (host : HostMem) (buffer : Addr) (src : Addr → Byte) (small : len + 1 < 2 ^ 64) :
    host.write buffer src (ofNat 64 (len + 1)) =
      update (host.write buffer src (ofNat 64 len)) (buffer + ofNat 64 len)
        (src (ofNat 64 len)) := by
  have size (n : Nat) (below : n < 2 ^ 64) (p : Addr) :
    p - buffer < ofNat 64 n ↔ (p - buffer).toNat < n := by
    rw [lt_def, toNat_ofNat, mod_eq_of_lt below]
  funext p
  by_cases here : p = buffer + ofNat 64 len
  · have offset : p - buffer = ofNat 64 len := by
      rw [here, BitVec.add_comm, BitVec.add_sub_cancel]
    have inside : p - buffer < ofNat 64 (len + 1) := by
      rw [size _ small, offset, toNat_ofNat]
      omega
    rw [← here, update_self, HostMem.write_apply, if_pos inside, offset]
  · have apart : (p - buffer).toNat ≠ len := by
      intro same
      apply here
      rw [← same, BitVec.ofNat_toNat, BitVec.setWidth_eq, BitVec.add_comm, BitVec.sub_add_cancel]
    rw [update_of_ne here, HostMem.write_apply]
    refine if_congr ?_ rfl rfl
    rw [size _ small, size _ (by omega)]
    omega

theorem replay_toMem (off : Nat) (host : HostMem) (image : Nat → Byte) (buffer : Addr)
    (small : len < 2 ^ 64) :
    (movesFrom off true (pointers buffer len)).foldl AtaMove.replay (host, image) =
      (host.write buffer (fun i => image (off + i.toNat)) (ofNat 64 len), image) := by
  induction len with
  | zero =>
    rfl
  | succ len ih =>
    rw [movesFrom_succ, foldl_append, ih (by omega), write_succ host buffer _ small, toNat_ofNat,
      mod_eq_of_lt (by omega)]
    rfl

theorem write_load (host : HostMem) (image : Nat → Byte) (buffer : Addr) (small : len < 2 ^ 64) :
    host.write buffer (fun i => (load image off len).getD i.toNat 0) (ofNat 64 len) =
      host.write buffer (fun i => image (off + i.toNat)) (ofNat 64 len) := by
  funext p
  rw [HostMem.write_apply, HostMem.write_apply]
  split
  case isTrue inside =>
    rw [lt_def, toNat_ofNat, mod_eq_of_lt small] at inside
    rw [getD_eq_getElem?_getD, getElem?_load image inside, Option.getD_some]
  case isFalse => rfl

theorem replay_toDisk (host : HostMem) (image : Nat → Byte) (buffer : Addr) (len : Nat) :
    (movesFrom off false (pointers buffer len)).foldl AtaMove.replay (host, image) =
      (host, store image off ((pointers buffer len).map host)) := by
  induction len with
  | zero =>
    rw [show pointers buffer 0 = [] from rfl, map_nil, store_nil]
    rfl
  | succ len ih =>
    have places : ((pointers buffer len).map host).length = len := by rw [length_map, length_pointers]
    rw [movesFrom_succ, foldl_append, ih, pointers_succ, map_append, ← store_append, places]
    exact congrArg (Prod.mk host) (store_singleton _ _ _).symm

end Moves

/-! A transfer serves the buffers of the table one by one. -/

def prdtServe (cb : BlkBackend) (isRead : Bool) : List (Addr × Nat) → PrdtRun → PrdtRun
  | [], r => r
  | (buffer, size) :: rest, r =>
    let (moved, r) := prdtMove cb isRead buffer size r
    if moved ≠ size then r else prdtServe cb isRead rest { r with processed := r.processed + size }

theorem ataPrdtLoop_serves (cb : BlkBackend) (f : PciFunc) (prdtAddr : BitVec 32)
    (words : Nat → BitVec 32 × BitVec 32) (isRead : Bool) (rounds i : Nat) (r : PrdtRun) :
    ataPrdtLoop cb f prdtAddr words isRead rounds i r =
      prdtServe cb isRead (prdBuffers f prdtAddr words rounds i) r := by
  induction rounds generalizing i r with
  | zero => rfl
  | succ rounds ih =>
    unfold ataPrdtLoop prdBuffers
    cases pciGetDmaPtr f (prdtAddr.setWidth 64 + ofNat 64 (8 * i)) 8 with
    | none => rfl
    | some prd =>
      dsimp only
      rw [Option.isSome_some, if_pos rfl]
      cases pciGetDmaPtr f ((words i).1.setWidth 64) (prdBufSize (words i).2) with
      | none => rfl
      | some buffer =>
        unfold prdtServe
        dsimp only
        split
        · rfl
        · split
          · rfl
          · exact ih (i + 1) _

theorem ataProcessPrdt_serves (cb : BlkBackend) (f : PciFunc) (words : Nat → BitVec 32 × BitVec 32)
    (host : HostMem) (ata : AtaDev) :
    let buffers := prdBuffers f ata.prdtAddr words ataPrdtMaxEntries 0
    let done := prdtServe cb (ata.bmdmaCommand &&& ataBmdmaCommandRead != 0) buffers ⟨ata.blk, host, 0, []⟩
    (ataProcessPrdt cb f words host ata).2 = (done.host, done.moves) ∧
      (ataProcessPrdt cb f words host ata).1.blk = done.blk ∧
      (ataProcessPrdt cb f words host ata).1.bmdmaStatus =
        if done.processed = ata.sectcount.toNat <<< 9 then ataBmdmaStatusIrq
        else ataBmdmaStatusIrq ||| ataBmdmaStatusErr := by
  intro buffers done
  have loop : ataPrdtLoop cb f ata.prdtAddr words
    (ata.bmdmaCommand &&& ataBmdmaCommandRead != 0) ataPrdtMaxEntries 0
      ⟨ata.blk, host, 0, []⟩ = done := ataPrdtLoop_serves _ _ _ _ _ _ _ _
  unfold ataProcessPrdt
  dsimp only
  rw [loop]
  exact ⟨rfl, rfl, rfl⟩

/-- How many bytes are moved, and how many the loop counts. -/
def tally (served : Nat → Nat → Nat) : Nat → List Nat → Nat × Nat
  | _, [] => (0, 0)
  | off, size :: rest =>
    if served off size = size then
      (size + (tally served (off + size) rest).1, size + (tally served (off + size) rest).2)
    else (served off size, 0)

section Serve
variable {cb : BlkBackend} {d : BlkDisk} {isRead : Bool}

def servedAt (cb : BlkBackend) (d : BlkDisk) (isRead : Bool) (off size : Nat) : Nat :=
  d.served cb isRead (ofNat 64 off) size

structure At (isRead : Bool) (d : BlkDisk) (off : Nat) (blk : Option BlkDisk) (image : Nat → Byte) : Prop where
  disk : ∃ d', blk = some d' ∧ BlkDisk.Alike isRead d d' ∧ d'.head = ofNat 64 off ∧ d'.image = image

theorem prdtMove_moves (cb : BlkBackend) {off size : Nat} {r : PrdtRun} {image : Nat → Byte} (buffer : Addr)
    (near : off + size < 2 ^ 63) (here : At isRead d off r.blk image) :
    ∃ r', prdtMove cb isRead buffer size r = (servedAt cb d isRead off size, r') ∧
      r'.processed = r.processed ∧
      r'.moves = r.moves ++ movesFrom off isRead (pointers buffer (servedAt cb d isRead off size)) ∧
      ∃ image', At isRead d (off + servedAt cb d isRead off size) r'.blk image' ∧
        (r'.host, image') =
          (movesFrom off isRead (pointers buffer (servedAt cb d isRead off size))).foldl AtaMove.replay
            (r.host, image) := by
  obtain ⟨d', found, alike, head, rfl⟩ := here.disk
  have position : d'.head.toNat = off := by
    rw [head, toNat_ofNat]
    omega
  have answer : d'.served cb isRead d'.head size = servedAt cb d isRead off size := by
    rw [alike.served (by omega), head]
    rfl
  have short : servedAt cb d isRead off size ≤ size := BlkDisk.served_le _ _ _ _ _
  have next : d'.head + ofNat 64 (servedAt cb d isRead off size) =
      ofNat 64 (off + servedAt cb d isRead off size) := by
    rw [head, ofNat_add]
  cases isRead with
  | true =>
    obtain ⟨bytes, disk⟩ := BlkDisk.rvvmBlkReadHead_near cb (by omega : d'.head.toNat + size < 2 ^ 63)
    rw [answer] at bytes
    rw [answer, next] at disk
    have replayed := replay_toMem off r.host d'.image buffer
      (by omega : servedAt cb d true off size < 2 ^ 64)
    rw [← write_load _ _ _ (by omega)] at replayed
    refine ⟨⟨some { d' with head := ofNat 64 (off + servedAt cb d true off size) },
      r.host.write buffer (fun i => (load d'.image off (servedAt cb d true off size)).getD i.toNat 0)
        (ofNat 64 (servedAt cb d true off size)), r.processed, _⟩, ?_, rfl, rfl, d'.image,
      ⟨_, rfl, ⟨alike.read, alike.write, alike.grow, alike.size⟩, rfl, rfl⟩, replayed.symm⟩
    simp [prdtMove, found, readHead, bytes, disk, length_load, position]
  | false =>
    have length : ((pointers buffer size).map r.host).length = size := by rw [length_map, length_pointers]
    obtain ⟨count, image, moved, alike'⟩ :=
      BlkDisk.rvvmBlkWriteHead_near cb (by rw [length]; omega :
        d'.head.toNat + ((pointers buffer size).map r.host).length < 2 ^ 63)
    rw [length, answer] at count image moved
    rw [position, ← map_take, take_pointers buffer short] at image
    refine ⟨⟨some _, r.host, r.processed, _⟩, ?_, rfl, rfl, _,
      ⟨_, rfl, alike.trans alike', moved.trans next, image⟩, (replay_toDisk r.host d'.image buffer _).symm⟩
    simp [prdtMove, found, writeHead, count, position]

/-- The buffers are served in order until one is not served in full. -/
theorem prdtServe_serves (cb : BlkBackend) {buffers : List (Addr × Nat)} {off : Nat} {r : PrdtRun}
    {image : Nat → Byte}
    (near : off + (buffers.map Prod.snd).sum < 2 ^ 63) (here : At isRead d off r.blk image) :
    let m := tally (servedAt cb d isRead) off (buffers.map Prod.snd)
    let moves := movesFrom off isRead ((concatenation buffers).take m.1)
    (prdtServe cb isRead buffers r).processed = r.processed + m.2 ∧
      (prdtServe cb isRead buffers r).moves = r.moves ++ moves ∧
      ((prdtServe cb isRead buffers r).host, imageOf (prdtServe cb isRead buffers r).blk) =
        moves.foldl AtaMove.replay (r.host, image) := by
  induction buffers generalizing off r image with
  | nil =>
    obtain ⟨d', found, -, -, rfl⟩ := here.disk
    refine ⟨rfl, (append_nil _).symm, ?_⟩
    unfold prdtServe
    rw [found]
    rfl
  | cons b rest ih =>
    obtain ⟨buffer, size⟩ := b
    rw [map_cons, sum_cons] at near
    obtain ⟨r', step, processed, moves, image', here', replay⟩ :=
      prdtMove_moves cb buffer (by omega : off + size < 2 ^ 63) here
    have short : servedAt cb d isRead off size ≤ size := BlkDisk.served_le _ _ _ _ _
    unfold prdtServe
    rw [step, map_cons]
    unfold tally
    dsimp only
    by_cases whole : servedAt cb d isRead off size = size
    · rw [whole] at moves here' replay
      rw [if_neg (not_not.mpr whole), if_pos whole]
      obtain ⟨counted, moved, replayed⟩ :=
        ih (r := { r' with processed := r'.processed + size }) (by omega) here'
      have split : (concatenation ((buffer, size) :: rest)).take
          (size + (tally (servedAt cb d isRead) (off + size) (rest.map Prod.snd)).1) =
          pointers buffer size ++ (concatenation rest).take
            (tally (servedAt cb d isRead) (off + size) (rest.map Prod.snd)).1 := by
        rw [concatenation, flatMap_cons, take_append, length_pointers, Nat.add_sub_cancel_left,
          take_of_length_le (by rw [length_pointers]; omega)]
        rfl
      rw [split, movesFrom_append, length_pointers, foldl_append, ← replay]
      refine ⟨?_, ?_, replayed⟩
      · rw [counted]
        rw [processed, add_assoc]
      · rw [moved]
        rw [moves, append_assoc]
    · rw [if_pos whole, if_neg whole]
      have cut : (concatenation ((buffer, size) :: rest)).take (servedAt cb d isRead off size) =
          pointers buffer (servedAt cb d isRead off size) := by
        rw [concatenation, flatMap_cons,
          take_append_of_le_length (by rw [length_pointers]; exact short),
          take_pointers buffer short]
      obtain ⟨d', found, -, -, rfl⟩ := here'.disk
      rw [cut]
      refine ⟨processed, moves, ?_⟩
      rw [← replay, found]
      rfl

end Serve

/-! The numbers that decide whether a transfer is as expected. -/

theorem prdBufSize_bounds (prdSectcount : BitVec 32) :
    0 < prdBufSize prdSectcount ∧ prdBufSize prdSectcount ≤ 0x10000 := by
  unfold prdBufSize
  split
  case isTrue => decide
  case isFalse some =>
    have positive : (prdSectcount &&& 0xFFFF).toNat ≠ 0 := fun zero => some (eq_of_toNat_eq zero)
    have low : (prdSectcount &&& 0xFFFF).toNat ≤ 0xFFFF := by
      exact and_le_right
    omega

theorem prdBuffers_bounds (f : PciFunc) (prdtAddr : BitVec 32) (words : Nat → BitVec 32 × BitVec 32)
    (rounds i : Nat) :
    (∀ size ∈ (prdBuffers f prdtAddr words rounds i).map Prod.snd, 0 < size) ∧
      ((prdBuffers f prdtAddr words rounds i).map Prod.snd).sum ≤ rounds * 0x10000 := by
  induction rounds generalizing i with
  | zero => exact ⟨nofun, le_refl _⟩
  | succ rounds ih =>
    obtain ⟨positive, bound⟩ := prdBufSize_bounds (words i).2
    have nothing : (∀ size ∈ (map Prod.snd ([] : List (Addr × Nat))), 0 < size) ∧
        ((map Prod.snd ([] : List (Addr × Nat))).sum ≤ (rounds + 1) * 0x10000) :=
      ⟨nofun, zero_le _⟩
    unfold prdBuffers
    split
    · split
      · exact nothing
      · rw [map_cons, sum_cons]
        split
        · refine ⟨fun size member => ?_, ?_⟩
          · rw [mem_singleton.mp member]
            exact positive
          · change _ + 0 ≤ _
            omega
        · obtain ⟨positive', bound'⟩ := ih (i + 1)
          refine ⟨fun size member => ?_, by omega⟩
          rcases mem_cons.mp member with rfl | later
          · exact positive
          · exact positive' size later
    · exact nothing

theorem length_concatenation (buffers : List (Addr × Nat)) :
    (concatenation buffers).length = (buffers.map Prod.snd).sum := by
  rw [concatenation, length_flatMap]
  simp [length_pointers]

section Numbers
variable {served : Nat → Nat → Nat} (short : ∀ off size, served off size ≤ size)
include short

theorem tally_le (off : Nat) (sizes : List Nat) : (tally served off sizes).1 ≤ sizes.sum := by
  induction sizes generalizing off with
  | nil => exact le_refl _
  | cons size rest ih =>
    have first := short off size
    have later := ih (off + size)
    unfold tally
    rw [sum_cons]
    split <;> dsimp only <;> omega

theorem prdsFit_iff {agrees : Prop} (off left : Nat) {sizes : List Nat} (positive : ∀ size ∈ sizes, 0 < size) :
    PrdsFit agrees served off left sizes ↔
      (0 < (tally served off sizes).1 → agrees) ∧ (tally served off sizes).1 ≤ left ∧
        ((tally served off sizes).2 = left ↔ left ≤ (tally served off sizes).1) := by
  induction sizes generalizing off left with
  | nil =>
    refine ⟨fun _ => ⟨fun moved => absurd moved (lt_irrefl 0), zero_le left, ?_⟩, fun _ => trivial⟩
    exact ⟨fun none => none.symm.le, fun none => (le_zero.mp none).symm⟩
  | cons size rest ih =>
    have first := short off size
    have some := positive size mem_cons_self
    have later := ih (off + size) (left - size) fun size member => positive size (mem_cons_of_mem _ member)
    unfold PrdsFit tally
    by_cases whole : served off size = size
    · rw [if_pos whole, whole]
      constructor
      · rintro ⟨here, rest'⟩
        obtain ⟨-, inside, ends⟩ := later.mp (rest' rfl)
        exact ⟨fun _ => (here some).1, by omega, by omega⟩
      · rintro ⟨agree, inside, ends⟩
        refine ⟨fun _ => ⟨agree (by omega), by omega⟩,
          fun _ => later.mpr ⟨fun _ => agree (by omega), by omega, ?_⟩⟩
        omega
    · rw [if_neg whole]
      generalize served off size = moved at first whole ⊢
      constructor
      · rintro ⟨here, -⟩
        by_cases nothing : moved = 0
        · subst nothing
          exact ⟨fun moved => absurd moved (lt_irrefl 0), zero_le _, by omega⟩
        · obtain ⟨agree, fits⟩ := here (by omega)
          exact ⟨fun _ => agree, by omega, by omega⟩
      · rintro ⟨agree, inside, ends⟩
        exact ⟨fun moves => ⟨agree moves, by omega⟩, fun all => absurd all whole⟩

end Numbers

theorem dmaLawful_iff {read dir : Bool} {first n m counted : Nat} {buffers : List (Addr × Nat)} {host : HostMem}
    {image : Nat → Byte} {result : AtaDev × HostMem × List AtaMove}
    (moves : result.2.2 = movesFrom (first * 512) dir ((concatenation buffers).take m))
    (within : m ≤ (concatenation buffers).length)
    (made : (result.2.1, imageOf result.1.blk) = result.2.2.foldl AtaMove.replay (host, image))
    (status : result.1.bmdmaStatus = if counted = n * 512 then ataBmdmaStatusIrq
      else ataBmdmaStatusIrq ||| ataBmdmaStatusErr) :
    DmaLawful read first n buffers host image result ↔
      (0 < m → dir = read) ∧ m ≤ n * 512 ∧ (counted = n * 512 ↔ n * 512 ≤ m) := by
  have length : ((concatenation buffers).take m).length = m := by
    rw [length_take]
    omega
  have places : result.2.2.map AtaMove.off = (range m).map (first * 512 + ·) := by
    rw [moves, map_off_movesFrom, length]
  have confined : (∀ move ∈ result.2.2, first * 512 ≤ move.off ∧ move.off < (first + n) * 512) ↔ m ≤ n * 512 := by
    have byOffset : (∀ move ∈ result.2.2, first * 512 ≤ move.off ∧ move.off < (first + n) * 512) ↔
        ∀ off ∈ result.2.2.map AtaMove.off, first * 512 ≤ off ∧ off < (first + n) * 512 := by
      rw [forall_mem_map]
    rw [byOffset, places, forall_mem_map]
    simp only [mem_range]
    constructor
    · intro inside
      by_contra far
      have last := inside (n * 512) (by omega)
      omega
    · intro inside k below
      omega
  have ordered : result.2.2 = movesFrom (first * 512) read ((concatenation buffers).take result.2.2.length) ↔
      (0 < m → dir = read) := by
    have count : result.2.2.length = m := by rw [moves, length_movesFrom, length]
    rw [count, moves]
    constructor
    · intro same some
      have ways := congrArg (map AtaMove.toMem) same
      rw [map_toMem_movesFrom, map_toMem_movesFrom] at ways
      exact (replicate_inj.mp ways).2.resolve_left (by omega)
    · intro agrees
      by_cases nothing : m = 0
      · rw [nothing]
        rfl
      · rw [agrees (pos_of_ne_zero nothing)]
  have clear : result.1.bmdmaStatus &&& ataBmdmaStatusErr = 0 ↔ counted = n * 512 := by
    rw [status]
    split
    case isTrue all => exact ⟨fun _ => all, fun _ => rfl⟩
    case isFalse some => exact ⟨nofun, fun all => absurd all some⟩
  have all : (∀ k < n * 512, first * 512 + k ∈ result.2.2.map AtaMove.off) ↔ n * 512 ≤ m := by
    rw [places]
    constructor
    · intro moved
      by_contra few
      obtain ⟨k, below, same⟩ := mem_map.mp (moved m (by omega))
      have inside := mem_range.mp below
      omega
    · intro enough k below
      exact mem_map_of_mem (mem_range.mpr (by omega))
  constructor
  · intro lawful
    exact ⟨ordered.mp lawful.ordered, confined.mp lawful.confined, clear.symm.trans (lawful.status.trans all)⟩
  · rintro ⟨agrees, inside, ends⟩
    exact ⟨confined.mpr inside, ordered.mpr agrees, made, clear.trans (ends.trans all.symm)⟩

/-! The command and the start of the transfer. -/

section Session
variable {cb : BlkBackend} {ata : AtaDev} {d : BlkDisk}

theorem ataDma_command (present : ata.blk = some d) (lba : BitVec 28) (nsect : Byte) (read : Bool) :
    ataDataWrite cb (ataAddress lba nsect cb ata) (ataReg 7) (single (if read then 0xC8 else 0xCA)) =
      ataSendInterrupt
        { addressed ata lba nsect with blk := some { d with head := lba.setWidth 64 <<< 9 } } := by
  have command : ataHandleCmd cb (addressed ata lba nsect) (ataCmd (if read then 0xC8 else 0xCA)) =
      ataSeekDma (addressed ata lba nsect) := by
    cases read <;> rfl
  rw [ataCommand_eq (by rw [present]; rfl), command]
  change (if (seekHead ata.blk (lba.setWidth 64 <<< 9)).1 = true then
    ataSendInterrupt { addressed ata lba nsect with blk := (seekHead ata.blk (lba.setWidth 64 <<< 9)).2 }
      else _) = _
  rw [seekHead_lba present]
  rfl

def Starts (ata : AtaDev) (start : Byte) : Prop := start.getLsbD 0 = true ∧ ata.bmdmaCommand.getLsbD 0 = false

instance (start : Byte) : Decidable (Starts ata start) := inferInstanceAs (Decidable (_ ∧ _))

theorem starts_iff (start : Byte) : (ataPciBmdmaWrite ata 0 (single start)).2 = true ↔ Starts ata start := by
  change (start.setWidth 32 &&& mask 0 != 0 && ata.bmdmaCommand &&& mask 0 &&& mask 0 == 0) = true ↔ _
  have idle : (ata.bmdmaCommand &&& mask 0 == 0) = !ata.bmdmaCommand.getLsbD 0 := by
    rw [← getLsbD_and_mask ata.bmdmaCommand 0, bne, Bool.not_not]
  rw [BitVec.and_assoc, BitVec.and_self, getLsbD_and_mask, idle, Bool.and_eq_true, Bool.not_eq_true']
  exact Iff.rfl

theorem direction_eq (start : Byte) :
    ((ataPciBmdmaWrite ata 0 (single start)).1.bmdmaCommand &&& ataBmdmaCommandRead != 0) = start.getLsbD 3 := by
  change (((ata.bmdmaCommand &&& mask 0 ||| start.setWidth 32) &&& mask 3) != 0) = _
  rw [getLsbD_and_mask, getLsbD_or, getLsbD_and, getLsbD_mask 0 (3 % 32) (by decide)]
  simp

/-- What the transfer does, in numbers. -/
theorem ataDma_result (cb : BlkBackend) (f : PciFunc) (words : Nat → BitVec 32 × BitVec 32) (host : HostMem)
    (present : ata.blk = some d) (lba : BitVec 28) (nsect : Byte) (read : Bool) {start : Byte}
    (starts : Starts ata start) :
    let buffers := prdBuffers f ata.prdtAddr words ataPrdtMaxEntries 0
    let m := tally (servedAt cb d (start.getLsbD 3)) (lba.toNat * 512) (buffers.map Prod.snd)
    ∃ result, ataDma cb f words host ata lba nsect read start = some result ∧
      result.2.2 = movesFrom (lba.toNat * 512) (start.getLsbD 3) ((concatenation buffers).take m.1) ∧
      (result.2.1, imageOf result.1.blk) = result.2.2.foldl AtaMove.replay (host, d.image) ∧
      result.1.bmdmaStatus = if m.2 = sectors nsect * 512 then ataBmdmaStatusIrq
        else ataBmdmaStatusIrq ||| ataBmdmaStatusErr := by
  intro buffers m
  have count := sectors_pos nsect
  have total : (buffers.map Prod.snd).sum ≤ ataPrdtMaxEntries * 0x10000 :=
    (prdBuffers_bounds f ata.prdtAddr words ataPrdtMaxEntries 0).2
  have near : lba.toNat * 512 + (buffers.map Prod.snd).sum < 2 ^ 63 := by
    have limit : ataPrdtMaxEntries = 0x10000 := rfl
    omega
  have here : At (start.getLsbD 3) d (lba.toNat * 512)
    (some { d with head := lba.setWidth 64 <<< 9 }) d.image := by
    refine ⟨_, rfl, ⟨rfl, rfl, rfl, .inl rfl⟩, ?_, rfl⟩
    apply eq_of_toNat_eq
    rw [seek_toNat, toNat_ofNat]
    omega
  have wanted : (ofNat 16 (sectors nsect)).toNat <<< 9 = sectors nsect * 512 := by
    rw [toNat_ofNat]
    omega
  obtain ⟨counted, moves, replay⟩ :=
    prdtServe_serves cb (r := ⟨some { d with head := lba.setWidth 64 <<< 9 }, host, 0, []⟩) near here
  rw [zero_add] at counted
  let ready := ataSendInterrupt
    { addressed ata lba nsect with blk := some { d with head := lba.setWidth 64 <<< 9 } }
  have begins : (ataPciBmdmaWrite ready 0 (single start)).2 = true := (starts_iff start).mpr starts
  obtain ⟨bytes, disk, status⟩ :=
    ataProcessPrdt_serves cb f words host (ataPciBmdmaWrite ready 0 (single start)).1
  rw [direction_eq start] at bytes disk status
  refine ⟨ataProcessPrdt cb f words host (ataPciBmdmaWrite ready 0 (single start)).1, ?_, ?_, ?_, ?_⟩
  · unfold ataDma
    rw [ataDma_command present]
    exact if_pos begins
  · rw [bytes]
    exact moves
  · rw [bytes, disk]
    exact replay.trans (congrArg _ moves.symm)
  · rw [status]
    refine if_congr ?_ rfl rfl
    exact (congrArg₂ (· = ·) counted wanted).to_iff

/-- A transfer of whole sectors is as expected exactly when its buffers fit them. -/
theorem ata_dma_lawful_iff (f : PciFunc) (words : Nat → BitVec 32 × BitVec 32) (host : HostMem)
    (present : ata.blk = some d) (lba : BitVec 28) (nsect : Byte) (read : Bool) (start : Byte) :
    let buffers := prdBuffers f ata.prdtAddr words ataPrdtMaxEntries 0
    (∀ result, ataDma cb f words host ata lba nsect read start = some result →
      DmaLawful read lba.toNat (sectors nsect) buffers host d.image result) ↔
      (Starts ata start → PrdsFit (start.getLsbD 3 = read) (servedAt cb d (start.getLsbD 3)) (lba.toNat * 512)
        (sectors nsect * 512) (buffers.map Prod.snd)) := by
  intro buffers
  by_cases starts : Starts ata start
  · have short (off size : Nat) : servedAt cb d (start.getLsbD 3) off size ≤ size := BlkDisk.served_le _ _ _ _ _
    have positive := (prdBuffers_bounds f ata.prdtAddr words ataPrdtMaxEntries 0).1
    have within := tally_le short (lba.toNat * 512) (buffers.map Prod.snd)
    obtain ⟨result, runs, moves, made, status⟩ := ataDma_result cb f words host present lba nsect read starts
    rw [← length_concatenation] at within
    rw [runs, prdsFit_iff short _ _ positive, ← dmaLawful_iff moves within made status]
    refine ⟨fun lawful _ => lawful result rfl, fun lawful other same => ?_⟩
    rw [← Option.some.inj same]
    exact lawful starts
  · have refused : ataDma cb f words host ata lba nsect read start = none := by
      unfold ataDma
      rw [ataDma_command present]
      exact if_neg fun begins => starts ((starts_iff start).mp begins)
    rw [refused]
    exact ⟨fun _ begins => absurd begins starts, fun _ result found => by cases found⟩

end Session

def masterFunc : PciFunc :=
  ⟨⟨⟨0x80000000, 0x10000, 0x10000, by decide, by decide⟩, fun _ => 0, []⟩, 0x4⟩

def twoSectors : BlkDisk := ⟨true, true, false, 1024, 0, fun p => ofNat 8 p⟩

def idleDrive : AtaDev := { ataCreate (some twoSectors) [] with prdtAddr := 0x80000000 }

def oneBuffer (size : BitVec 32) : Nat → BitVec 32 × BitVec 32 := fun _ => (0x80001000, 0x80000000 ||| size)

/-- A buffer as large as the sector is filled with it. -/
theorem ata_dma_lawful_sector :
    (prdBuffers masterFunc 0x80000000 (oneBuffer 512) ataPrdtMaxEntries 0).map Prod.snd = [512] ∧
    ∀ result, ataDma wholeBackend masterFunc (oneBuffer 512) (fun _ => 0) idleDrive 1 1 true 0x09 = some result →
      DmaLawful true 1 1 (prdBuffers masterFunc 0x80000000 (oneBuffer 512) ataPrdtMaxEntries 0) (fun _ => 0)
        twoSectors.image result := by
  have sizes : (prdBuffers masterFunc 0x80000000 (oneBuffer 512) ataPrdtMaxEntries 0).map Prod.snd = [512] := by
    decide +kernel
  have fits : PrdsFit ((0x09#8).getLsbD 3 = true) (servedAt wholeBackend twoSectors ((0x09#8).getLsbD 3)) (1 * 512)
      (1 * 512) ((prdBuffers masterFunc 0x80000000 (oneBuffer 512) ataPrdtMaxEntries 0).map Prod.snd) := by
    exact ⟨fun _ => ⟨rfl, .inl (le_refl _)⟩, fun _ => trivial⟩
  refine ⟨sizes, ?_⟩
  exact (ata_dma_lawful_iff masterFunc (oneBuffer 512) (fun _ => 0) rfl 1 1 true 0x09).mpr fun _ => fits

/-- READ DMA for the first sector with a buffer of two reads the second one as well. -/
theorem ata_dma_leaves_sectors :
    let buffers := prdBuffers masterFunc 0x80000000 (oneBuffer 1024) ataPrdtMaxEntries 0
    ∃ result, ataDma wholeBackend masterFunc (oneBuffer 1024) (fun _ => 0) idleDrive 0 1 true 0x09 = some result ∧
      (∃ move ∈ result.2.2, move.off = 1023) ∧
      ¬ DmaLawful true 0 1 buffers (fun _ => 0) twoSectors.image result := by
  intro buffers
  have length : (concatenation buffers).length = 1024 := by rw [length_concatenation]; rfl
  obtain ⟨result, runs, moves, -, -⟩ := ataDma_result wholeBackend masterFunc (oneBuffer 1024) (fun _ => 0) rfl 0
    1 true (⟨rfl, rfl⟩ : Starts idleDrive 0x09)
  have moved : result.2.2 = movesFrom 0 true ((concatenation buffers).take
      (tally (servedAt wholeBackend twoSectors true) 0 (buffers.map Prod.snd)).1) := moves
  have places : result.2.2.map AtaMove.off = (range 1024).map (0 + ·) := by
    rw [moved, map_off_movesFrom, length_take, length]
    rfl
  obtain ⟨move, member, place⟩ : ∃ move ∈ result.2.2, move.off = 1023 := by
    apply mem_map.mp
    rw [places]
    exact mem_map.mpr ⟨1023, mem_range.mpr (by decide), rfl⟩
  refine ⟨result, runs, ⟨move, member, place⟩, fun lawful => ?_⟩
  have inside := (lawful.confined move member).2
  omega

end Rvvm.Ata
