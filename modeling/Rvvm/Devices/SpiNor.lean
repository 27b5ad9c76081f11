import Rvvm.Library.Runs

/-! The SPI NOR flash: a session runs from a falling to a rising edge of chip select, its first byte
is the command. The bytes of the session are kept beside the device, to say what its answers and its
effect on the flash should be. -/
namespace Rvvm.SpiNor
open Function List Nat Runs

/-- What the opcodes stand for. Reads have filler bytes after the address, erases a block size. -/
inductive Cmd
  | wren
  | wrdi
  | rdsr1
  | rdsr2
  | rdsr3
  | wrsr1
  | wrsr2
  | wrsr3
  | read (fillers : Nat)
  | pp
  | erase (block : Nat)
  | ce
  | rdid
  | rems
  | rdpd
  | dp
  | other
  deriving DecidableEq

def decode (opcode : BitVec 8) : Cmd :=
  match opcode.toNat with
  | 0x06 => .wren
  | 0x04 => .wrdi
  | 0x05 => .rdsr1
  | 0x35 => .rdsr2
  | 0x15 => .rdsr3
  | 0x01 => .wrsr1
  | 0x31 => .wrsr2
  | 0x11 => .wrsr3
  | 0x03 => .read 0
  | 0x0B | 0x3B | 0x6B | 0xBB => .read 1
  | 0xEB => .read 3
  | 0x02 => .pp
  | 0x20 => .erase 4096
  | 0x52 => .erase (32 * 1024)
  | 0xD8 => .erase (64 * 1024)
  | 0xC7 | 0x60 => .ce
  | 0x9F => .rdid
  | 0x90 => .rems
  | 0xAB => .rdpd
  | 0xB9 => .dp
  | _ => .other

/-- The image file may be larger than the chip. -/
structure Chip where
  size : Nat
  jedec : Nat → BitVec 8
  fileSize : Nat
  listed : size ∈ [2 * 1024 * 1024, 4 * 1024 * 1024, 8 * 1024 * 1024, 16 * 1024 * 1024]
  grown : size ≤ fileSize

structure Nor where
  file : Nat → BitVec 8
  csLow : Bool
  cmd : BitVec 8
  byteIdx : Nat
  addr : Nat
  argByte : BitVec 8
  ppBuf : Nat → BitVec 8
  ppDirty : Nat → Bool
  sr1 : BitVec 8
  sr2 : BitVec 8
  sr3 : BitVec 8
  wel : Bool
  powerDown : Bool

section
variable (chip : Chip)

/-- One byte of the file; nothing is read past its end. -/
def readByte (file : Nat → BitVec 8) (addr : Nat) : BitVec 8 := if addr < chip.fileSize then file addr else 0xFF

def fill (file : Nat → BitVec 8) (addr len : Nat) : Nat → BitVec 8 :=
  fun x => if addr ≤ x ∧ x < addr + len then 0xFF else file x

def eraseLoop (file : Nat → BitVec 8) (addr len : Nat) : Nat → BitVec 8 :=
  if len = 0 then file
  else
    let chunk := if 4096 < len then 4096 else len
    eraseLoop (fill file addr chunk) (addr + chunk) (len - chunk)
termination_by len
decreasing_by split <;> omega

def eraseRange (file : Nat → BitVec 8) (addr len : Nat) : Nat → BitVec 8 :=
  if chip.size ≤ addr then file
  else eraseLoop file addr (if chip.size < addr + len then chip.size - addr else len)

/-- The loop of `program_commit` over the offsets still to be visited. -/
def programLoop (s : Nor) (pageBase : Nat) : List Nat → (Nat → BitVec 8) → Nat → BitVec 8
  | [], file => file
  | off :: offs, file =>
    if !s.ppDirty off then programLoop s pageBase offs file
    else if chip.size ≤ pageBase + off then file
    else
      let target := pageBase + off
      programLoop s pageBase offs (update file target (readByte chip file target &&& s.ppBuf off))

def programCommit (s : Nor) : Nat → BitVec 8 :=
  let pageBase := s.addr / 256 * 256
  if chip.size ≤ pageBase then s.file else programLoop chip s pageBase (range 256) s.file

def Nor.latchOff (s : Nor) : Nor := { s with wel := false, sr1 := s.sr1 &&& ~~~ 0x02 }

def spiNorSelect (s : Nor) (asserted : Bool) : Nor :=
  if asserted then
    { s with csLow := true, byteIdx := 0, cmd := 0xFF, addr := 0, argByte := 0, ppDirty := fun _ => false }
  else if !s.csLow then s
  else
    let s := { s with csLow := false }
    match decode s.cmd with
    | .wren => { s with wel := true, sr1 := s.sr1 ||| 0x02 }
    | .wrdi => s.latchOff
    | .wrsr1 =>
      if s.wel && 2 ≤ s.byteIdx then
        Nor.latchOff { s with sr1 := (s.argByte &&& ~~~ 0x01) ||| (s.sr1 &&& 0x02) }
      else s
    | .wrsr2 => if s.wel && 2 ≤ s.byteIdx then Nor.latchOff { s with sr2 := s.argByte } else s
    | .wrsr3 => if s.wel && 2 ≤ s.byteIdx then Nor.latchOff { s with sr3 := s.argByte } else s
    | .pp => if s.wel && 5 ≤ s.byteIdx then Nor.latchOff { s with file := programCommit chip s } else s
    | .erase block =>
      if s.wel && 4 ≤ s.byteIdx then
        Nor.latchOff { s with file := eraseRange chip s.file (s.addr / block * block) block }
      else s
    | .ce => if s.wel then Nor.latchOff { s with file := eraseRange chip s.file 0 chip.size } else s
    | .dp => { s with powerDown := true }
    | .rdpd => { s with powerDown := false }
    | _ => s

def Nor.shiftAddr (s : Nor) (tx : BitVec 8) : Nor := { s with addr := (s.addr * 256 + tx.toNat) % 2 ^ 32 }

def spiNorTransfer (s : Nor) (tx : BitVec 8) : Nor × BitVec 8 :=
  if s.byteIdx = 0 then ({ s with cmd := tx, byteIdx := 1 }, 0xFF)
  else
    let i := s.byteIdx - 1
    let s := { s with byteIdx := (s.byteIdx + 1) % 2 ^ 32 }
    match decode s.cmd with
    | .rdid => (s, if i < 3 then chip.jedec i else 0xFF)
    | .rems => (s, if i < 3 then 0xFF else if (i - 3) % 2 = 1 then chip.jedec 2 else chip.jedec 0)
    | .rdpd => (s, if i < 3 then 0xFF else chip.jedec 2)
    | .rdsr1 => (s, s.sr1)
    | .rdsr2 => (s, s.sr2)
    | .rdsr3 => (s, s.sr3)
    | .wrsr1 | .wrsr2 | .wrsr3 => (if i = 0 then { s with argByte := tx } else s, 0xFF)
    | .read fillers =>
      if i < 3 then (s.shiftAddr tx, 0xFF)
      else if i < 3 + fillers then (s, 0xFF)
      else ({ s with addr := (s.addr + 1) % chip.size }, readByte chip s.file s.addr)
    | .pp =>
      if i < 3 then (s.shiftAddr tx, 0xFF)
      else
        let off := (s.addr + (i - 3)) % 256
        ({ s with ppBuf := update s.ppBuf off tx, ppDirty := update s.ppDirty off true }, 0xFF)
    | .erase _ => (if i < 3 then s.shiftAddr tx else s, 0xFF)
    | _ => (s, 0xFF)

/-! ## What the device should do -/

/-- The device and the bytes shifted since chip select fell. -/
structure Line where
  nor : Nor
  bytes : List (BitVec 8)

inductive Event
  | select (asserted : Bool)
  | shift (tx : BitVec 8)

def step (s : Line) : Event → Line
  | .select asserted => ⟨spiNorSelect chip s.nor asserted, if asserted then [] else s.bytes⟩
  | .shift tx => ⟨(spiNorTransfer chip s.nor tx).1, s.bytes ++ [tx]⟩

def command (bytes : List (BitVec 8)) : Cmd := decode (bytes.headD 0xFF)

def address (bytes : List (BitVec 8)) : Nat :=
  (bytes.tail.take 3).foldl (fun addr byte => addr * 256 + byte.toNat) 0

def lastSent (addr : Nat) (data : List (BitVec 8)) (off : Nat) : Option (BitVec 8) :=
  data.zipIdx.foldl (fun last byte => if (addr + byte.2) % 256 = off then some byte.1 else last) none

def programmed (file : Nat → BitVec 8) (addr : Nat) (data : List (BitVec 8)) (x : Nat) : BitVec 8 :=
  if x < chip.size ∧ x / 256 = addr / 256 then file x &&& (lastSent addr data (x % 256)).getD 0xFF else file x

def erased (file : Nat → BitVec 8) (addr block x : Nat) : BitVec 8 :=
  if x < chip.size ∧ x / block = addr / block then 0xFF else file x

/-- The flash after a session with the latch set. -/
def flashAfter (file : Nat → BitVec 8) (bytes : List (BitVec 8)) : Nat → BitVec 8 :=
  match command bytes with
  | .pp => if 5 ≤ bytes.length then programmed chip file (address bytes) (bytes.drop 4) else file
  | .erase block => if 4 ≤ bytes.length then erased chip file (address bytes) block else file
  | .ce => erased chip file 0 chip.size
  | _ => file

/-- One edge or byte does what it should: the flash changes only when a session with the latch set
ends, to what its bytes ask for, and the latch is then cleared; a read returns the next byte of the
stream. -/
def Lawful (s : Line) : Event → Prop
  | .select true => (step chip s (.select true)).nor.file = s.nor.file ∧
      (step chip s (.select true)).nor.wel = s.nor.wel
  | .select false =>
    let after := (step chip s (.select false)).nor
    (s.nor.csLow && s.nor.wel) = true ∧ after.file = flashAfter chip s.nor.file s.bytes ∧
        (after.file ≠ s.nor.file → after.wel = false) ∨
      (s.nor.csLow && s.nor.wel) = false ∧ after.file = s.nor.file
  | .shift tx =>
    (step chip s (.shift tx)).nor.file = s.nor.file ∧ (step chip s (.shift tx)).nor.wel = s.nor.wel ∧
      (s.nor.csLow = true → ∀ fillers, command s.bytes = .read fillers → 4 + fillers ≤ s.bytes.length →
        (spiNorTransfer chip s.nor tx).2 =
          s.nor.file ((address s.bytes + (s.bytes.length - (4 + fillers))) % chip.size))

/-- The byte counter does not wrap, and a read starts inside the chip or at a byte that reads the same there. -/
def Within (s : Line) : Event → Prop
  | .select _ => True
  | .shift _ => s.nor.csLow = true → s.bytes.length + 1 < 2 ^ 32 ∧
      ∀ fillers, command s.bytes = .read fillers → s.bytes.length = 4 + fillers →
        address s.bytes < chip.size ∨
          readByte chip s.nor.file (address s.bytes) = s.nor.file (address s.bytes % chip.size)

/-! ## Erasing and programming -/

theorem eraseLoop_eq (file : Nat → BitVec 8) (addr len : Nat) : eraseLoop file addr len = fill file addr len := by
  fun_induction eraseLoop file addr len with
  | case1 file addr =>
    funext x
    exact (if_neg (by omega)).symm
  | case2 file addr len more chunk ih =>
    rw [ih]
    have bounded : chunk ≤ len := by
      simp only [chunk]
      split <;> omega
    funext x
    simp only [fill]
    by_cases early : addr + chunk ≤ x ∧ x < addr + chunk + (len - chunk)
    · rw [if_pos early, if_pos (by omega)]
    · rw [if_neg early]
      exact if_congr (by omega) rfl rfl

theorem Chip.block_dvd {opcode : BitVec 8} {block : Nat} (erases : decode opcode = .erase block) :
    0 < block ∧ block ∣ chip.size := by
  have small : block ∈ [4096, 32 * 1024, 64 * 1024] := by
    revert erases
    unfold decode
    split <;> simp +contextual [eq_comm]
  have listed := chip.listed
  simp only [mem_cons, not_mem_nil, or_false] at small listed
  rcases small with rfl | rfl | rfl <;> rcases listed with size | size | size | size <;> rw [size] <;> decide

theorem Chip.page_dvd : 256 ∣ chip.size ∧ 0 < chip.size := by
  have listed := chip.listed
  simp only [mem_cons, not_mem_nil, or_false] at listed
  rcases listed with size | size | size | size <;> rw [size] <;> decide

theorem block_inside {block size addr : Nat} (dvd : block ∣ size) (starts : addr / block * block < size) :
    addr / block * block + block ≤ size := by
  obtain ⟨n, rfl⟩ := dvd
  have below : addr / block < n := by
    rw [mul_comm] at starts
    exact lt_of_mul_lt_mul_left starts (zero_le _)
  calc addr / block * block + block = block * (addr / block + 1) := by ring
    _ ≤ block * n := mul_le_mul_left block below

theorem div_eq_iff_within {block addr : Nat} (pos : 0 < block) (x : Nat) :
    x / block = addr / block ↔ addr / block * block ≤ x ∧ x < addr / block * block + block := by
  rw [Nat.div_eq_iff pos]
  omega

theorem eraseRange_eq {block : Nat} (pos : 0 < block) (dvd : block ∣ chip.size) (file : Nat → BitVec 8)
    (addr : Nat) :
    eraseRange chip file (addr / block * block) block = erased chip file addr block := by
  funext x
  simp only [eraseRange, erased, div_eq_iff_within pos]
  by_cases outside : chip.size ≤ addr / block * block
  · rw [if_pos outside, if_neg (by omega)]
  · have inside := block_inside dvd (Nat.lt_of_not_le outside)
    rw [if_neg outside, if_neg (by omega), eraseLoop_eq]
    exact if_congr (by omega) rfl rfl

theorem programLoop_eq (s : Nor) {pageBase : Nat} {offs : List Nat}
    (inside : ∀ off ∈ offs, pageBase + off < chip.size)
    (distinct : offs.Nodup) (file : Nat → BitVec 8) (x : Nat) :
    programLoop chip s pageBase offs file x =
      if pageBase ≤ x ∧ x - pageBase ∈ offs ∧ s.ppDirty (x - pageBase) = true then
        file x &&& s.ppBuf (x - pageBase)
      else file x := by
  induction offs generalizing file with
  | nil => simp [programLoop]
  | cons off offs ih =>
    obtain ⟨fresh, distinct⟩ := nodup_cons.mp distinct
    obtain ⟨here, inside⟩ := forall_mem_cons.mp inside
    have stored : readByte chip file (pageBase + off) = file (pageBase + off) :=
      if_pos (here.trans_le chip.grown)
    unfold programLoop
    by_cases same : x = pageBase + off
    · subst same
      cases dirty : s.ppDirty off with
      | true =>
        simp [ih inside distinct, fresh, dirty, stored, not_le.mpr here]
      | false => simp [ih inside distinct, fresh, dirty]
    · have other : pageBase ≤ x ∧ x - pageBase ∈ offs ∧ s.ppDirty (x - pageBase) = true ↔
          pageBase ≤ x ∧ x - pageBase ∈ off :: offs ∧ s.ppDirty (x - pageBase) = true := by
        refine and_congr_right fun above => ?_
        rw [mem_cons, or_iff_right (by omega)]
      cases dirty : s.ppDirty off with
      | true =>
        simp only [Bool.not_true, Bool.false_eq_true, if_false, not_le.mpr here, ih inside distinct,
          update_of_ne same]
        exact if_congr other rfl rfl
      | false =>
        simp only [Bool.not_false, if_true, ih inside distinct]
        exact if_congr other rfl rfl

variable {s : Nor}

theorem programCommit_eq {data : List (BitVec 8)}
    (sent : ∀ off, lastSent s.addr data off = if s.ppDirty off then some (s.ppBuf off) else none) :
    programCommit chip s = programmed chip s.file s.addr data := by
  obtain ⟨dvd, -⟩ := chip.page_dvd
  have within (x : Nat) : x / 256 = s.addr / 256 ↔ s.addr / 256 * 256 ≤ x ∧ x < s.addr / 256 * 256 + 256 :=
    div_eq_iff_within (by decide) x
  funext x
  unfold programCommit programmed
  by_cases outside : chip.size ≤ s.addr / 256 * 256
  · rw [if_pos outside, if_neg (by omega)]
  · rw [if_neg outside, programLoop_eq chip s (fun off member => by have := mem_range.mp member; omega)
      nodup_range, sent]
    by_cases here : x / 256 = s.addr / 256
    · have above : s.addr / 256 * 256 ≤ x := ((within x).mp here).1
      have offset : x - s.addr / 256 * 256 = x % 256 := by omega
      have low : x % 256 ∈ range 256 := by
        rw [mem_range]
        omega
      rw [offset]
      cases dirty : s.ppDirty (x % 256) with
      | true =>
        rw [if_pos ⟨above, low, rfl⟩, if_pos ⟨by omega, here⟩]
        rfl
      | false =>
        rw [if_neg (by simp), if_pos ⟨by omega, here⟩]
        exact BitVec.and_allOnes.symm
    · rw [if_neg (by rw [mem_range]; omega), if_neg (by omega)]

/-! ## A session, byte by byte -/

theorem foldl_lt (digits : List (BitVec 8)) :
    digits.foldl (fun addr byte => addr * 256 + byte.toNat) 0 < 256 ^ digits.length := by
  induction digits using reverseRecOn with
  | nil => decide
  | append_singleton digits digit ih =>
    rw [foldl_concat, length_append, length_singleton]
    omega

variable {cmd : BitVec 8} {rest : List (BitVec 8)}

theorem address_early (early : rest.length < 3) (tx : BitVec 8) :
    address (cmd :: (rest ++ [tx])) = (address (cmd :: rest) * 256 + tx.toNat) % 2 ^ 32 := by
  have whole : address (cmd :: rest) = rest.foldl (fun addr byte => addr * 256 + byte.toNat) 0 := by
    rw [address, tail_cons, take_of_length_le early.le]
  have bound := (foldl_lt rest).trans_le (Nat.pow_le_pow_right (by decide : 0 < 256) early.le)
  rw [whole, address, tail_cons,
    take_of_length_le (by rw [length_append, length_singleton]; omega),
    foldl_concat, Nat.mod_eq_of_lt (by omega)]

theorem address_late (late : 3 ≤ rest.length) (tx : BitVec 8) :
    address (cmd :: (rest ++ [tx])) = address (cmd :: rest) := by
  simp [address, take_append_of_le_length late]

theorem lastSent_concat (addr : Nat) (data : List (BitVec 8)) (tx : BitVec 8) (off : Nat) :
    lastSent addr (data ++ [tx]) off = if (addr + data.length) % 256 = off then some tx
      else lastSent addr data off := by
  simp [lastSent, zipIdx_append]

/-- The session's state in the device is what its bytes say. -/
structure Follows (s : Nor) (bytes : List (BitVec 8)) : Prop where
  count : s.byteIdx = bytes.length
  cmd : s.cmd = bytes.headD 0xFF
  start : bytes = [] → s.addr = 0 ∧ ∀ off, s.ppDirty off = false
  erasing : ∀ block, decode s.cmd = .erase block → s.addr = address bytes
  paging : decode s.cmd = .pp → s.addr = address bytes ∧
    ∀ off, lastSent s.addr (bytes.drop 4) off = if s.ppDirty off then some (s.ppBuf off) else none
  reading : ∀ fillers, decode s.cmd = .read fillers →
    s.addr = if bytes.length ≤ 4 + fillers then address bytes
      else (address bytes + (bytes.length - (4 + fillers))) % chip.size

theorem follows_first (follows : Follows chip s []) (tx : BitVec 8) :
    Follows chip (spiNorTransfer chip s tx).1 [tx] := by
  obtain ⟨zero, clean⟩ := follows.start rfl
  have next : (spiNorTransfer chip s tx).1 = { s with cmd := tx, byteIdx := 1 } := by
    rw [spiNorTransfer, if_pos (show s.byteIdx = 0 from follows.count)]
  rw [next]
  refine ⟨rfl, rfl, nofun, fun _ _ => zero, fun _ => ⟨zero, fun off => ?_⟩,
    fun _ _ => ?_⟩
  · simp only [clean off]
    rfl
  · rw [if_pos (by rw [length_singleton]; omega)]
    exact zero

/-- The part of `Follows` that concerns one command. -/
def Tracked (s : Nor) (bytes : List (BitVec 8)) : Cmd → Prop
  | .erase _ => s.addr = address bytes
  | .pp => s.addr = address bytes ∧
    ∀ off, lastSent s.addr (bytes.drop 4) off = if s.ppDirty off then some (s.ppBuf off) else none
  | .read fillers => s.addr = if bytes.length ≤ 4 + fillers then address bytes
    else (address bytes + (bytes.length - (4 + fillers))) % chip.size
  | _ => True

theorem follows_of_tracked {op : Cmd} (count : s.byteIdx = rest.length + 1) (same : s.cmd = cmd)
    (decoded : decode cmd = op) (tracked : Tracked chip s (cmd :: rest) op) : Follows chip s (cmd :: rest) := by
  subst same decoded
  refine ⟨count, rfl, nofun, fun block op => ?_, fun op => ?_, fun fillers op => ?_⟩ <;>
  · rw [op] at tracked
    exact tracked

theorem follows_next (follows : Follows chip s (cmd :: rest))
    (tx : BitVec 8) (room : rest.length + 2 < 2 ^ 32) :
    Follows chip (spiNorTransfer chip s tx).1 (cmd :: (rest ++ [tx])) := by
  have count : s.byteIdx = rest.length + 1 := follows.count
  have same : s.cmd = cmd := follows.cmd
  have length : (rest ++ [tx]).length = rest.length + 1 := length_append
  unfold spiNorTransfer
  rw [if_neg (by omega), show s.byteIdx - 1 = rest.length by omega,
    show (s.byteIdx + 1) % 2 ^ 32 = (rest ++ [tx]).length + 1 by omega]
  dsimp only
  rw [same]
  cases op : decode cmd with
  | erase block =>
    have addressed := follows.erasing block (same ▸ op)
    dsimp only
    split
    next early =>
      refine follows_of_tracked chip rfl rfl op ?_
      rw [Tracked, address_early early, ← addressed]
      rfl
    next late =>
      refine follows_of_tracked chip rfl rfl op ?_
      rw [Tracked, address_late (Nat.le_of_not_lt late)]
      exact addressed
  | pp =>
    obtain ⟨addressed, sent⟩ := follows.paging (same ▸ op)
    dsimp only
    split
    next early =>
      refine follows_of_tracked chip rfl rfl op ⟨?_, fun off => ?_⟩
      · rw [address_early early, ← addressed]
        rfl
      · have sent := sent off
        rw [drop_succ_cons, drop_of_length_le (by omega)] at sent
        rw [drop_succ_cons, drop_of_length_le (by omega)]
        exact sent
    next late =>
      have late := Nat.le_of_not_lt late
      refine follows_of_tracked chip rfl rfl op ⟨?_, fun off => ?_⟩
      · rw [address_late late]
        exact addressed
      · rw [drop_succ_cons] at sent ⊢
        rw [drop_append_of_le_length late, lastSent_concat, sent]
        by_cases here : (s.addr + (rest.length - 3)) % 256 = off
        · simp [here]
        · simp [here, update_of_ne (Ne.symm here)]
  | read fillers =>
    have addressed := follows.reading fillers (same ▸ op)
    rw [length_cons] at addressed
    dsimp only
    split
    next early =>
      refine follows_of_tracked chip rfl rfl op ?_
      rw [if_pos (by omega)] at addressed
      rw [Tracked, length_cons, if_pos (by omega), address_early early, ← addressed]
      rfl
    next late =>
      have late := Nat.le_of_not_lt late
      split
      next waiting =>
        refine follows_of_tracked chip rfl rfl op ?_
        rw [if_pos (by omega)] at addressed
        rw [Tracked, length_cons, if_pos (by omega), address_late late]
        exact addressed
      next streaming =>
        refine follows_of_tracked chip rfl rfl op ?_
        rw [Tracked, length_cons, if_neg (by omega), address_late late, length]
        dsimp only
        rw [addressed]
        split
        next first => rw [show rest.length + 1 + 1 - (4 + fillers) = 1 by omega]
        next later => rw [mod_add_mod, show rest.length + 1 + 1 - (4 + fillers)
          = rest.length + 1 - (4 + fillers) + 1 by omega, add_assoc]
  | wrsr1 | wrsr2 | wrsr3 =>
    dsimp only
    split <;> exact follows_of_tracked chip rfl rfl op trivial
  | _ => exact follows_of_tracked chip rfl rfl op trivial

theorem transfer_keeps (s : Nor) (tx : BitVec 8) :
    (spiNorTransfer chip s tx).1.file = s.file ∧ (spiNorTransfer chip s tx).1.wel = s.wel ∧
      (spiNorTransfer chip s tx).1.csLow = s.csLow := by
  unfold spiNorTransfer
  split
  · exact ⟨rfl, rfl, rfl⟩
  · dsimp only
    cases decode s.cmd with
    | read fillers =>
      dsimp only
      split
      · exact ⟨rfl, rfl, rfl⟩
      · split <;> exact ⟨rfl, rfl, rfl⟩
    | pp | erase | wrsr1 | wrsr2 | wrsr3 =>
      dsimp only
      split <;> exact ⟨rfl, rfl, rfl⟩
    | _ => exact ⟨rfl, rfl, rfl⟩

theorem deselect_csLow (s : Nor) : (spiNorSelect chip s false).csLow = false := by
  unfold spiNorSelect
  cases low : s.csLow with
  | false => exact low
  | true =>
    simp only [Bool.false_eq_true, if_false, Bool.not_true]
    cases decode s.cmd with
    | wrsr1 | wrsr2 | wrsr3 | pp | erase | ce =>
      dsimp only
      split <;> rfl
    | _ => rfl

theorem deselect_unlatched (clear : (s.csLow && s.wel) = false) :
    (spiNorSelect chip s false).file = s.file := by
  unfold spiNorSelect
  cases low : s.csLow with
  | false => rfl
  | true =>
    have wel : s.wel = false := by simpa [low] using clear
    simp only [Bool.false_eq_true, if_false, Bool.not_true, wel, Bool.false_and]
    cases decode s.cmd <;> rfl

theorem deselect_latched {bytes : List (BitVec 8)} (follows : Follows chip s bytes)
    (set : (s.csLow && s.wel) = true) :
    (spiNorSelect chip s false).file = flashAfter chip s.file bytes ∧
      ((spiNorSelect chip s false).file ≠ s.file → (spiNorSelect chip s false).wel = false) := by
  obtain ⟨low, wel⟩ := (Bool.and_eq_true _ _).mp set
  have count := follows.count
  have same : command bytes = decode s.cmd := by
    rw [follows.cmd]
    rfl
  unfold spiNorSelect flashAfter
  rw [same]
  simp only [Bool.false_eq_true, if_false, low, Bool.not_true, wel, Bool.true_and, decide_eq_true_eq, count]
  cases op : decode s.cmd with
  | pp =>
    obtain ⟨addressed, sent⟩ := follows.paging op
    dsimp only
    split
    next =>
      refine ⟨?_, fun _ => rfl⟩
      rw [← addressed]
      apply programCommit_eq
      exact sent
    next => exact ⟨rfl, fun changed => absurd rfl changed⟩
  | erase block =>
    obtain ⟨pos, dvd⟩ := chip.block_dvd op
    dsimp only
    split
    next =>
      refine ⟨?_, fun _ => rfl⟩
      rw [← follows.erasing block op]
      exact eraseRange_eq chip pos dvd s.file s.addr
    next => exact ⟨rfl, fun changed => absurd rfl changed⟩
  | ce =>
    have whole := eraseRange_eq chip chip.page_dvd.2 dvd_rfl s.file 0
    rw [Nat.zero_div, Nat.zero_mul] at whole
    exact ⟨whole, fun _ => rfl⟩
  | wrsr1 | wrsr2 | wrsr3 =>
    dsimp only
    split <;> exact ⟨rfl, fun changed => absurd rfl changed⟩
  | _ => exact ⟨rfl, fun changed => absurd rfl changed⟩

/-- While chip select is low, the device follows the bytes of the session. -/
def Inv (s : Line) : Prop := s.nor.csLow = true → Follows chip s.nor s.bytes

theorem step_inv (s : Line) (event : Event) (inv : Inv chip s) (within : Within chip s event) :
    Inv chip (step chip s event) := by
  cases event with
  | select asserted =>
    cases asserted with
    | true =>
      intro _
      have none : decode 0xFF = .other := by decide
      refine ⟨rfl, rfl, fun _ => ⟨rfl, fun _ => rfl⟩, fun _ op => ?_, fun op => ?_, fun _ op => ?_⟩
      all_goals exact absurd (none.symm.trans op) (by simp)
    | false =>
      intro low
      exact nomatch (deselect_csLow chip s.nor).symm.trans low
  | shift tx =>
    intro low
    have low : s.nor.csLow = true := (transfer_keeps chip s.nor tx).2.2 ▸ low
    have follows := inv low
    obtain ⟨room, -⟩ := within low
    obtain ⟨nor, bytes⟩ := s
    cases bytes with
    | nil => exact follows_first chip follows tx
    | cons cmd rest => exact follows_next chip follows tx (by simpa using room)

theorem read_answer {bytes : List (BitVec 8)} (follows : Follows chip s bytes) {fillers : Nat}
    (reads : command bytes = .read fillers) (late : 4 + fillers ≤ bytes.length)
    (starts : bytes.length = 4 + fillers → address bytes < chip.size ∨
      readByte chip s.file (address bytes) = s.file (address bytes % chip.size)) (tx : BitVec 8) :
    (spiNorTransfer chip s tx).2 = s.file ((address bytes + (bytes.length - (4 + fillers))) % chip.size) := by
  have count := follows.count
  have op : decode s.cmd = .read fillers := by
    rw [follows.cmd]
    exact reads
  have addressed := follows.reading fillers op
  have stored : ∀ x < chip.size, readByte chip s.file x = s.file x :=
    fun x small => if_pos (small.trans_le chip.grown)
  have answer : (spiNorTransfer chip s tx).2 = readByte chip s.file s.addr := by
    unfold spiNorTransfer
    rw [if_neg (by omega)]
    dsimp only
    rw [op]
    dsimp only
    rw [if_neg (by omega), if_neg (by omega)]
  rw [answer, addressed]
  split
  next first =>
    have exact_ : bytes.length = 4 + fillers := by omega
    rw [exact_, Nat.sub_self, Nat.add_zero]
    rcases starts exact_ with inside | same
    · rw [stored _ inside, mod_eq_of_lt inside]
    · exact same
  next later => exact stored _ (mod_lt _ chip.page_dvd.2)

theorem select_lawful (s : Line) (inv : Inv chip s) : Lawful chip s (.select false) := by
  cases latch : s.nor.csLow && s.nor.wel with
  | true =>
    obtain ⟨low, -⟩ := (Bool.and_eq_true _ _).mp latch
    obtain ⟨after, cleared⟩ := deselect_latched chip (inv low) latch
    exact .inl ⟨latch, after, cleared⟩
  | false => exact .inr ⟨latch, deselect_unlatched chip latch⟩

theorem step_lawful (s : Line) (event : Event) (inv : Inv chip s) (within : Within chip s event) :
    Lawful chip s event := by
  cases event with
  | select asserted =>
    cases asserted with
    | true => exact ⟨rfl, rfl⟩
    | false => exact select_lawful chip s inv
  | shift tx =>
    obtain ⟨file, wel, -⟩ := transfer_keeps chip s.nor tx
    refine ⟨file, wel, fun low fillers reads late => ?_⟩
    exact read_answer chip (inv low) reads late ((within low).2 fillers reads) tx

/-- From any device that is not selected, every run whose sessions keep within the byte counter and
whose reads start inside the chip does what it should at every edge and byte. -/
theorem nor_run_lawful (nor : Nor) (bytes : List (BitVec 8)) (idle : nor.csLow = false) (events : List Event)
    (within : AllSteps (step chip) (Within chip) ⟨nor, bytes⟩ events) :
    AllSteps (step chip) (Lawful chip) ⟨nor, bytes⟩ events :=
  AllSteps.entails (step_inv chip) (step_lawful chip)
    (fun low => absurd (idle.symm.trans low) Bool.false_ne_true) within

end

def w25q16 : Chip where
  size := 2 * 1024 * 1024
  jedec i := if i = 0 then 0xEF else if i = 1 then 0x40 else 0x15
  fileSize := 2 * 1024 * 1024
  listed := by decide
  grown := le_rfl

def attached (file : Nat → BitVec 8) : Nor :=
  ⟨file, false, 0, 0, 0, 0, fun _ => 0, fun _ => false, 0, 0, 0, false, false⟩

theorem nor_run_lawful_program :
    (final (step w25q16) ⟨attached fun _ => 0xF3, []⟩
        [.select true, .shift 0x06, .select false, .select true, .shift 0x02, .shift 0, .shift 0, .shift 5,
          .shift 0x3C, .select false]).nor.file 5 = 0x30 ∧
      AllSteps (step w25q16) (Lawful w25q16) ⟨attached fun _ => 0xF3, []⟩
        [.select true, .shift 0x06, .select false, .select true, .shift 0x02, .shift 0, .shift 0, .shift 5,
          .shift 0x3C, .select false] := by
  have early : ∀ {s : Line}, s.bytes.length + 1 < 2 ^ 32 → address s.bytes < w25q16.size → ∀ tx,
      Within w25q16 s (.shift tx) := fun room inside _ _ => ⟨room, fun _ _ _ => .inl inside⟩
  refine ⟨by decide +kernel, nor_run_lawful w25q16 _ _ rfl _ ⟨trivial, early ?_ ?_ _, trivial, trivial,
    early ?_ ?_ _,
    early ?_ ?_ _, early ?_ ?_ _, early ?_ ?_ _, early ?_ ?_ _, trivial, trivial⟩⟩ <;> decide +kernel

/-- A read that starts right past the end of the chip returns no byte of it. -/
theorem nor_read_past_end :
    let s := final (step w25q16) ⟨attached fun _ => 0x5A, []⟩
      [.select true, .shift 0x03, .shift 0x20, .shift 0, .shift 0]
    address s.bytes = w25q16.size ∧ (spiNorTransfer w25q16 s.nor 0).2 = 0xFF ∧
      s.nor.file (address s.bytes % w25q16.size) = 0x5A := by
  decide +kernel

end Rvvm.SpiNor
