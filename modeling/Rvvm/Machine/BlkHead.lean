import Rvvm.Machine.BlkDisk

/-! Transfers at the drive head, one after the other: what each of them moves depends on where the first one
started, and nothing else of the device changes. -/
namespace Rvvm.BlkDisk
open BitVec Slices

variable {cb : BlkBackend} {d d' : BlkDisk} {off : Addr}

/-- How much of a request the block layer moves. -/
def served (cb : BlkBackend) (d : BlkDisk) (isRead : Bool) (off : Addr) (size : Nat) : Nat :=
  if isRead then Rvvm.rvvmBlkRead (d.facing cb) size off else (Rvvm.rvvmBlkWrite (d.facing cb) size off).1

theorem served_le (cb : BlkBackend) (d : BlkDisk) (isRead : Bool) (off : Addr) (size : Nat) :
    d.served cb isRead off size ≤ size := by
  unfold served
  split
  · exact Rvvm.rvvmBlkRead_le _ _ _
  · exact Rvvm.rvvmBlkWrite_le _ _ _

/-- Requests are answered alike; a device that grows may have grown. -/
structure Alike (isRead : Bool) (d d' : BlkDisk) : Prop where
  read : d'.read = d.read
  write : d'.write = d.write
  grow : d'.grow = d.grow
  size : d'.size = d.size ∨ isRead = false ∧ d.grow = true

theorem Alike.refl (isRead : Bool) (d : BlkDisk) : Alike isRead d d := ⟨rfl, rfl, rfl, .inl rfl⟩

theorem Alike.trans {isRead : Bool} {d'' : BlkDisk} (first : Alike isRead d d') (second : Alike isRead d' d'') :
    Alike isRead d d'' := by
  refine ⟨second.read.trans first.read, second.write.trans first.write, second.grow.trans first.grow, ?_⟩
  rcases second.size with same | ⟨writes, grows⟩
  · rcases first.size with same' | grown
    · exact .inl (same.trans same')
    · exact .inr grown
  · exact .inr ⟨writes, first.grow.symm.trans grows⟩

variable {size : Nat}

theorem rvvmBlkWrite_grow (blk : RvvmBlk) (grows : blk.grow = true)
    (ends : off.toNat + size < 2 ^ 64) :
    (Rvvm.rvvmBlkWrite blk size off).1 = if blk.write = true ∧ 0 < size then blk.cbWrite off size else 0 := by
  have small : size < 2 ^ 64 := by omega
  have extended : (rvvmBlkExtend blk size off).1 = if 0 < size then blk.cbWrite off size else 0 := by
    unfold rvvmBlkExtend
    by_cases positive : 0 < size
    · rw [if_pos ⟨grows, (lt_add_iff small).mpr ⟨positive, ends⟩⟩, if_pos positive]
    · rw [if_neg fun past => positive ((lt_add_iff small).mp past.2).1, if_neg positive]
  have nothing (empty : ¬ 0 < size) : blk.cbWrite off size = 0 := by
    have short := blk.cbWrite_le off size
    omega
  unfold Rvvm.rvvmBlkWrite
  by_cases writable : blk.write = true
  · rw [if_pos writable]
    by_cases inside : off < blk.size
    · rw [if_pos inside]
      dsimp only
      split
      · by_cases positive : 0 < size
        · rw [if_pos ⟨writable, positive⟩]
        · rw [if_neg fun both => positive both.2]
          exact nothing positive
      · rw [if_neg (by rw [grows]; decide), extended]
        simp [writable]
    · rw [if_neg inside, extended]
      simp [writable]
  · rw [if_neg writable, if_neg fun both => writable both.1]

theorem Alike.served {isRead : Bool} (alike : Alike isRead d d') (ends : off.toNat + size < 2 ^ 64) :
    d'.served cb isRead off size = d.served cb isRead off size := by
  rcases alike.size with same | ⟨rfl, grows⟩
  · have facing : d'.facing cb = d.facing cb := by
      unfold BlkDisk.facing
      rw [alike.read, alike.write, alike.grow, same]
    unfold BlkDisk.served
    rw [facing]
  · change (Rvvm.rvvmBlkWrite _ _ _).1 = (Rvvm.rvvmBlkWrite _ _ _).1
    rw [rvvmBlkWrite_grow _ (alike.grow.trans grows) ends, rvvmBlkWrite_grow _ grows ends]
    have writes : (d'.facing cb).write = (d.facing cb).write := alike.write
    simp only [writes]
    rfl

/-! One transfer. -/

theorem rvvmBlkSeekHead_set (off : Addr) (near : off.toNat < 2 ^ 63) :
    rvvmBlkSeekHead d off .set = (true, { d with head := off }) := by
  have sign : off.msb = false := by
    rw [msb_eq_decide]
    exact decide_eq_false (by omega)
  unfold rvvmBlkSeekHead
  dsimp only
  rw [sign, if_neg nofun]

theorem rvvmBlkSeekHead_near {moved : Nat} (near : d.head.toNat + moved < 2 ^ 63) :
    rvvmBlkSeekHead d (BitVec.ofNat 64 moved) .cur =
      (true, { d with head := d.head + BitVec.ofNat 64 moved }) :=
  rvvmBlkSeekHead_set (d.head + _) (by rw [toNat_add, toNat_ofNat]; omega)

theorem rvvmBlkSeekHead_found (found : (rvvmBlkSeekHead d off .set).1 = true) :
    (rvvmBlkSeekHead d off .set).2 = { d with head := off } := by
  unfold rvvmBlkSeekHead at *
  dsimp only at *
  split at found
  case isTrue => cases found
  case isFalse negative => rw [if_neg negative]

theorem head_still : { d with head := d.head + BitVec.ofNat 64 0 } = d := by
  rw [BitVec.add_zero]

theorem rvvmBlkRead_load (cb : BlkBackend) (d : BlkDisk) (off : Addr) (size : Nat) :
    (d.rvvmBlkRead cb size off).1 = load d.image off.toNat (d.served cb true off size) := by
  have count : (d.rvvmBlkRead cb size off).1.length = d.served cb true off size := rvvmBlkRead_counts size
  by_cases ready : d.read = true ∧ off < d.size
  · rw [rvvmBlkRead_readable size ready.1 ready.2] at count ⊢
    rw [← count, length_load]
  · rw [rvvmBlkRead_refused size ready] at count ⊢
    rw [← count]
    rfl

theorem rvvmBlkReadHead_near (cb : BlkBackend) (near : d.head.toNat + size < 2 ^ 63) :
    (rvvmBlkReadHead cb d size).1 = load d.image d.head.toNat (d.served cb true d.head size) ∧
      (rvvmBlkReadHead cb d size).2.2 =
        { d with head := d.head + BitVec.ofNat 64 (d.served cb true d.head size) } := by
  have bytes := rvvmBlkRead_load cb d d.head size
  have short := served_le cb d true d.head size
  refine ⟨bytes, ?_⟩
  unfold rvvmBlkReadHead rvvmBlkTellHead
  dsimp only
  rw [bytes, length_load]
  by_cases nothing : d.served cb true d.head size = 0
  · rw [if_neg (not_not.mpr nothing), nothing, head_still]
  · rw [if_pos nothing, rvvmBlkSeekHead_near (by omega)]

variable {src : List Byte}

theorem rvvmBlkWrite_effect (cb : BlkBackend) (off : Addr) (small : src.length < 2 ^ 64) :
    (d.rvvmBlkWrite cb src off).1 = d.served cb false off src.length ∧
      (d.rvvmBlkWrite cb src off).2.2.image =
        store d.image off.toNat (src.take (d.served cb false off src.length)) ∧
      (d.rvvmBlkWrite cb src off).2.2.head = d.head ∧ Alike false d (d.rvvmBlkWrite cb src off).2.2 := by
  have count : (d.rvvmBlkWrite cb src off).1 = d.served cb false off src.length :=
    congrArg Prod.fst (rvvmBlkWrite_counts src)
  refine ⟨count, ?_⟩
  by_cases accepts : d.Accepts off src.length
  · obtain ⟨moved, disk⟩ := rvvmBlkWrite_accepts cb small accepts
    rw [← count, moved, disk]
    refine ⟨rfl, rfl, rfl, rfl, rfl, ?_⟩
    by_cases grows : d.grow = true
    · exact .inr ⟨rfl, grows⟩
    · have below : off.toNat < d.size.toNat := accepts.2.1.resolve_right grows
      have short := cb.write_le off (d.asked off src.length)
      have request : d.asked off src.length = min src.length (d.size - off).toNat := if_neg grows
      rw [remain_toNat (accepts.2.1.resolve_right grows)] at request
      left
      rw [stored_inside (by omega)]
  · obtain ⟨nothing, disk⟩ := rvvmBlkWrite_refuses cb small accepts
    rw [← count, nothing, disk, List.take_zero, store_nil]
    exact ⟨rfl, rfl, Alike.refl false d⟩

theorem rvvmBlkSeekHead_image (off : Addr) (whence : BlkSeek) :
    (rvvmBlkSeekHead d off whence).2.image = d.image := by
  unfold rvvmBlkSeekHead
  dsimp only
  split <;> split <;> rfl

theorem rvvmBlkWriteHead_image (cb : BlkBackend) (small : src.length < 2 ^ 64) :
    (rvvmBlkWriteHead cb d src).2.2.image =
      store d.image d.head.toNat (src.take (d.served cb false d.head src.length)) := by
  obtain ⟨-, image, -⟩ := rvvmBlkWrite_effect cb d.head small
  unfold rvvmBlkWriteHead rvvmBlkTellHead
  dsimp only
  split
  · rw [rvvmBlkSeekHead_image, image]
  · exact image

theorem rvvmBlkReadHead_image (cb : BlkBackend) (size : Nat) :
    (rvvmBlkReadHead cb d size).2.2.image = d.image := by
  unfold rvvmBlkReadHead
  dsimp only
  split
  · exact rvvmBlkSeekHead_image _ _
  · rfl

theorem rvvmBlkWriteHead_reaches (cb : BlkBackend) (small : src.length < 2 ^ 64)
    (reaches : d.head.toNat ≤ d.size.toNat) :
    d.head.toNat + (rvvmBlkWriteHead cb d src).1 ≤ (rvvmBlkWriteHead cb d src).2.2.size.toNat := by
  have size : (rvvmBlkWriteHead cb d src).2.2.size = (d.rvvmBlkWrite cb src d.head).2.2.size := by
    unfold rvvmBlkWriteHead rvvmBlkTellHead
    dsimp only
    split
    · exact rvvmBlkSeekHead_size _
    · rfl
  rw [size]
  change d.head.toNat + (d.rvvmBlkWrite cb src d.head).1 ≤ _
  by_cases nothing : (d.rvvmBlkWrite cb src d.head).1 = 0
  · by_cases accepts : d.Accepts d.head src.length
    · obtain ⟨count, disk⟩ := rvvmBlkWrite_accepts cb small accepts
      rw [disk, stored_size _ (write_ends cb ⟨src, small⟩ accepts), nothing]
      omega
    · rw [nothing, (rvvmBlkWrite_refuses cb small accepts).2]
      exact reaches
  · exact (write_grown ⟨src, small⟩ (Nat.pos_of_ne_zero nothing)).1

theorem rvvmBlkWriteHead_near (cb : BlkBackend) (near : d.head.toNat + src.length < 2 ^ 63) :
    (rvvmBlkWriteHead cb d src).1 = d.served cb false d.head src.length ∧
      (rvvmBlkWriteHead cb d src).2.2.image =
        store d.image d.head.toNat (src.take (d.served cb false d.head src.length)) ∧
      (rvvmBlkWriteHead cb d src).2.2.head =
        d.head + BitVec.ofNat 64 (d.served cb false d.head src.length) ∧
      Alike false d (rvvmBlkWriteHead cb d src).2.2 := by
  obtain ⟨count, image, head, alike⟩ := rvvmBlkWrite_effect cb d.head (by omega : src.length < 2 ^ 64)
  have short := served_le cb d false d.head src.length
  refine ⟨count, ?_⟩
  unfold rvvmBlkWriteHead rvvmBlkTellHead
  dsimp only
  rw [count]
  by_cases nothing : d.served cb false d.head src.length = 0
  · rw [if_neg (not_not.mpr nothing), image, head, nothing, BitVec.add_zero]
    exact ⟨rfl, rfl, alike⟩
  · rw [if_pos nothing, rvvmBlkSeekHead_near (by rw [head]; omega)]
    refine ⟨image, ?_, alike.read, alike.write, alike.grow, alike.size⟩
    rw [head]

end Rvvm.BlkDisk
