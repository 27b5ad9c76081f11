import Rvvm.Machine.Snapshot

/-! Reading a snapshot back. -/
namespace Rvvm.Snapshot
open List Runs Slices
open BitVec (lt_def ofNat ofNat_add toNat_ofNat)

def reopened (d : BlkDisk) : BlkDisk := ⟨true, false, false, d.size, 0, d.image⟩

/-- The requests for these sections, each with buffers of the sizes it was written with. -/
def readScript (requested : List SnapSection) : List SnapCall :=
  requested.flatMap fun s => .sect s.name :: s.chunks.map fun chunk => .data (replicate chunk.length 0)

def expected (requested : List SnapSection) : List SnapReply :=
  requested.flatMap fun s => ⟨true, []⟩ :: s.chunks.map fun chunk => ⟨true, chunk⟩

structure EmptyGrowable (d : BlkDisk) : Prop where
  write : d.write = true
  grow : d.grow = true
  size : d.size = 0
  head : d.head = 0

/-- What was written, by calls that all succeed on an empty device, comes back. -/
def RoundTrips (d : BlkDisk) (lead : List (List Byte)) (sections requested : List SnapSection)
    (writes reads : List (BlkBackend × SnapCall)) : Prop :=
  EmptyGrowable d → (sections.map SnapSection.name).Nodup → requested.Sublist sections →
    writes.map Prod.snd = lead.map .data ++ writeScript sections → AllOk (rvvmSnapshotOpen d true) writes →
    reads.map Prod.snd = readScript requested →
    snapReplies (rvvmSnapshotOpen (reopened (final snapStep (rvvmSnapshotOpen d true) writes).blk) false) reads =
      expected requested

/-- Sections that are skipped are as long as the name that is looked for, and differ from it; the last section
is not asked for. -/
def Readable : List SnapSection → List SnapSection → Prop
  | _, [] => True
  | [], _ :: _ => False
  | s :: rest, r :: requested =>
    s = r ∧ rest ≠ [] ∧ Readable rest requested ∨
      s.content.length = r.name.length ∧ s.content ≠ r.name ∧ Readable rest (r :: requested)

/-- No byte of data comes before the first section, the device stays within the signed range, and the host serves
every read. -/
structure RoundFits (lead : List (List Byte)) (sections requested : List SnapSection)
    (reads : List (BlkBackend × SnapCall)) : Prop where
  lead : lead.flatten = []
  near : (layout 0 sections).length < 2 ^ 63
  readable : Readable sections requested
  whole : ∀ call ∈ reads, ∀ off size, call.1.read off size = size

/-- The block layer moves less than it is asked to, or may not move it. -/
def DataShort (cb : BlkBackend) (snap : Snap) (size : Nat) : Prop :=
  snap.err = false ∧
    if snap.out then snap.blk.served cb false snap.blk.head size < size
    else snap.off < snap.blk.head + ofNat 64 size ∨ snap.blk.served cb true snap.blk.head size < size

/-- The data call is not short. -/
def DataWhole (snap : Snap) : BlkBackend × SnapCall → Prop
  | (cb, .data buf) => ¬ DataShort cb snap buf.length
  | (_, .sect _) => True

/-- A section call finds or writes every header it gets to. -/
def HeadersWhole (snap : Snap) : BlkBackend × SnapCall → Prop
  | (cb, .sect name) => snap.err = false → (rvvmSnapshotSection cb snap name).2.err = false
  | (_, .data _) => True

/-- A short transfer in a session is reported when the snapshot is closed. -/
def ShortReported (snap : Snap) (calls : List (BlkBackend × SnapCall)) : Prop :=
  ¬ AllSteps snapStep DataWhole snap calls → rvvmSnapshotClose (final snapStep snap calls) = false

/-! Names. -/

theorem rvvmStrcmp_eq {name bytes : List Byte} (text : ∀ c ∈ name, c ≠ 0) (length : bytes.length = name.length)
    (k : Nat) : rvvmStrcmp (bytes ++ replicate (k + 1) 0) name = decide (bytes = name) := by
  induction name generalizing bytes with
  | nil =>
    rw [length_eq_zero_iff.mp length]
    rfl
  | cons c rest ih =>
    obtain ⟨b, bs, rfl⟩ : ∃ b bs, bytes = b :: bs := by
      cases bytes with
      | nil => cases length
      | cons b bs => exact ⟨b, bs, rfl⟩
    change (if b ≠ 0 ∧ b = c then rvvmStrcmp (bs ++ _) rest else b == c) = _
    by_cases same : b = c
    · subst same
      rw [if_pos ⟨text b mem_cons_self, rfl⟩,
        ih (fun c member => text c (mem_cons_of_mem _ member)) (Nat.succ.inj length)]
      exact decide_eq_decide.mpr ⟨congrArg _, fun all => (cons.inj all).2⟩
    · rw [if_neg fun both => same both.2, beq_eq_false_iff_ne.mpr same]
      exact (decide_eq_false fun all => same (cons.inj all).1).symm

theorem readUint64Le_snapHeader (next : Addr) :
    readUint64Le (fun p => (snapHeader next).getD p.toNat 0) 16 = next := by
  let byte (i : Nat) : Byte := (next >>> (8 * i)).setWidth 8
  change ((byte 7 ++ byte 6) ++ (byte 5 ++ byte 4)) ++ ((byte 3 ++ byte 2) ++ (byte 1 ++ byte 0)) = next
  have bit (i j : Nat) (below : j < 8) : (byte i).getLsbD j = next.getLsbD (8 * i + j) := by
    rw [BitVec.getLsbD_setWidth, decide_eq_true below, Bool.true_and, BitVec.getLsbD_ushiftRight]
  apply BitVec.eq_of_getLsbD_eq
  intro i below
  simp only [BitVec.getLsbD_append]
  split_ifs <;> rw [bit _ _ (by omega)] <;> congr 1 <;> omega

/-- The reader is at `pos`, in front of `bytes`. -/
structure Reading (snap : Snap) (pos : Nat) (bytes : List Byte) : Prop where
  out : snap.out = false
  clean : snap.err = false
  readable : snap.blk.read = true
  head : snap.blk.head = ofNat 64 pos
  image : load snap.blk.image pos bytes.length = bytes
  inside : pos + bytes.length ≤ snap.blk.size.toNat
  near : pos + bytes.length < 2 ^ 63

section Reader
variable {cb : BlkBackend} (whole : ∀ off size, cb.read off size = size) {snap : Snap} {pos : Nat}
include whole

theorem readHead_whole {bytes rest : List Byte} (reading : Reading snap pos (bytes ++ rest)) :
    (rvvmBlkReadHead cb snap.blk bytes.length).1 = bytes ∧
      Reading { snap with blk := (rvvmBlkReadHead cb snap.blk bytes.length).2.2 } (pos + bytes.length) rest := by
  have length : (bytes ++ rest).length = bytes.length + rest.length := length_append
  have inside := reading.inside
  have near := reading.near
  have image := reading.image
  have position : snap.blk.head.toNat = pos := by
    rw [reading.head, toNat_ofNat]
    omega
  rw [length, load_add] at image
  obtain ⟨here, there⟩ := append_inj image (length_load _ _ _)
  have served : snap.blk.served cb true snap.blk.head bytes.length = bytes.length := by
    by_cases nothing : bytes.length = 0
    · have short := BlkDisk.served_le cb snap.blk true snap.blk.head bytes.length
      omega
    · have below : snap.blk.head < snap.blk.size := by
        rw [lt_def]
        omega
      have count : (snap.blk.rvvmBlkRead cb bytes.length snap.blk.head).1.length =
          snap.blk.served cb true snap.blk.head bytes.length := BlkDisk.rvvmBlkRead_counts _
      rw [BlkDisk.rvvmBlkRead_readable _ reading.readable below, whole, length_load] at count
      omega
  obtain ⟨read, disk⟩ := BlkDisk.rvvmBlkReadHead_near cb (by omega : snap.blk.head.toNat + bytes.length < 2 ^ 63)
  rw [served] at read disk
  rw [position, here] at read
  rw [reading.head, ← ofNat_add] at disk
  refine ⟨read, ?_⟩
  rw [disk]
  exact ⟨reading.out, reading.clean, reading.readable, rfl, there, by dsimp only; omega, by omega⟩

theorem readNext_reads {next : Nat} {rest : List Byte}
    (reading : Reading snap pos (snapHeader (ofNat 64 next) ++ rest)) :
    (readNext cb snap).1 = true ∧ (readNext cb snap).2.off = ofNat 64 next ∧
      Reading (readNext cb snap).2 (pos + 24) rest := by
  obtain ⟨header, after⟩ := readHead_whole whole reading
  rw [length_snapHeader] at header after
  have found : (rvvmBlkReadHead cb snap.blk 24).1.length = 24 ∧
      (rvvmBlkReadHead cb snap.blk 24).1.take 16 = snapMagic := by
    rw [header]
    exact ⟨rfl, rfl⟩
  unfold readNext
  rw [if_pos found, header, readUint64Le_snapHeader]
  exact ⟨rfl, rfl, after.out, after.clean, after.readable, after.head, after.image, after.inside, after.near⟩

theorem rvvmSnapshotData_reads {bytes rest buf : List Byte} {last : Nat}
    (reading : Reading snap pos (bytes ++ rest)) (off : snap.off = ofNat 64 last)
    (fits : pos + bytes.length ≤ last) (near : last < 2 ^ 63) (size : buf.length = bytes.length) :
    (rvvmSnapshotData cb snap buf).1 = true ∧ (rvvmSnapshotData cb snap buf).2.1 = bytes ∧
      (rvvmSnapshotData cb snap buf).2.2.off = ofNat 64 last ∧
      Reading (rvvmSnapshotData cb snap buf).2.2 (pos + bytes.length) rest := by
  obtain ⟨read, after⟩ := readHead_whole whole reading
  have within : ¬ rvvmBlkTellHead snap.blk + ofNat 64 buf.length > snap.off := by
    change ¬ snap.off < snap.blk.head + _
    rw [reading.head, off, lt_def, ← ofNat_add, toNat_ofNat, toNat_ofNat]
    omega
  have answer : rvvmSnapshotData cb snap buf =
      (true, bytes, { snap with blk := (rvvmBlkReadHead cb snap.blk bytes.length).2.2 }) := by
    unfold rvvmSnapshotData
    rw [reading.clean, if_neg nofun, reading.out, if_neg nofun, if_neg within, size]
    dsimp only
    rw [read, decide_eq_true rfl, ← size, drop_length, append_nil]
  rw [answer]
  exact ⟨rfl, rfl, off, after⟩

theorem sectionRound {s : SnapSection} {rest : List Byte} {name buf : List Byte} (rounds : Nat)
    (reading : Reading snap pos (s.record (pos + s.size) ++ rest)) (fits : name.length ≤ s.content.length)
    (size : (buf.take name.length).length = name.length) :
    ∃ snap', snap'.off = ofNat 64 (pos + s.size) ∧
      Reading snap' (pos + 24 + name.length) (s.content.drop name.length ++ rest) ∧
      sectionLoop cb name name.length (rounds + 1) buf snap =
        if rvvmStrcmp (s.content.take name.length ++ buf.drop name.length) name then (true, snap')
        else sectionLoop cb name name.length rounds
          (s.content.take name.length ++ buf.drop name.length) snap' := by
  have near := reading.near
  have length : (s.record (pos + s.size) ++ rest).length = s.size + rest.length := by
    rw [length_append, length_record]
  have content : s.size = 24 + s.content.length := rfl
  have cut : (s.content.take name.length).length = name.length := by
    rw [length_take]
    omega
  rw [SnapSection.record, append_assoc] at reading
  obtain ⟨found, off, headed⟩ := readNext_reads whole reading
  have next : rvvmSnapshotSectionNext cb snap = readNext cb snap := by
    unfold rvvmSnapshotSectionNext
    rw [reading.out, if_neg Bool.false_ne_true]
  rw [← take_append_drop name.length s.content, append_assoc] at headed
  obtain ⟨ok, bytes, off', after⟩ :=
    rvvmSnapshotData_reads whole headed off (by omega) (by omega) (size.trans cut.symm)
  rw [cut] at after
  refine ⟨_, off', after, ?_⟩
  rw [sectionLoop]
  rw [next, if_pos found, if_pos ok, bytes, after.out, Bool.not_false]
  cases rvvmStrcmp (s.content.take name.length ++ buf.drop name.length) name with
  | true => rfl
  | false => rfl

section
variable {sections requested : List SnapSection} {r : SnapSection}

/-- The reader comes to the section it looks for, over those it may skip. -/
theorem sectionLoop_reads {buf : List Byte}
    {rounds : Nat}
    (readable : Readable sections (r :: requested)) (reading : Reading snap pos (layout pos sections))
    (enough : sections.length ≤ rounds) (size : (buf.take r.name.length).length = r.name.length)
    (zeros : buf.drop r.name.length = replicate (255 - r.name.length + 1) 0) :
    ∃ snap' pos' rest, (sectionLoop cb r.name r.name.length rounds buf snap) = (true, snap') ∧
      snap'.off = ofNat 64 (pos' + r.bytes.length) ∧ rest ≠ [] ∧ Readable rest requested ∧
      Reading snap' pos' (r.bytes ++ layout (pos' + r.bytes.length) rest) := by
  induction sections generalizing snap pos buf rounds with
  | nil => exact readable.elim
  | cons s rest ih =>
    obtain ⟨rounds, rfl⟩ : ∃ n, rounds = n + 1 := by
      cases rounds with
      | zero => cases enough
      | succ n => exact ⟨n, rfl⟩
    have more : rest ≠ [] := by
      rcases readable with ⟨-, more, -⟩ | ⟨-, -, later⟩
      · exact more
      · rintro rfl
        exact later
    have shape : layout pos (s :: rest) = s.record (pos + s.size) ++ layout (pos + s.size) rest := by
      cases rest with
      | nil => exact absurd rfl more
      | cons t rest => rfl
    rw [shape] at reading
    rcases readable with ⟨rfl, -, later⟩ | ⟨same, differs, later⟩
    · have fits : s.name.length ≤ s.content.length := by
        rw [SnapSection.content, length_append]
        omega
      obtain ⟨snap', off, after, round⟩ := sectionRound whole rounds reading fits size
      have name : s.content.take s.name.length = s.name := take_left
      have data : s.content.drop s.name.length = s.bytes := drop_left
      have place : pos + s.size = pos + 24 + s.name.length + s.bytes.length := by
        rw [SnapSection.size, SnapSection.content, length_append]
        omega
      rw [name, zeros, rvvmStrcmp_eq s.text rfl, decide_eq_true rfl] at round
      rw [data, place] at after
      rw [place] at off
      exact ⟨snap', _, rest, round, off, more, later, after⟩
    · obtain ⟨snap', off, after, round⟩ := sectionRound whole rounds reading same.ge size
      have all : s.content.take r.name.length = s.content := take_of_length_le same.le
      have place : pos + 24 + r.name.length = pos + s.size := by
        rw [SnapSection.size]
        omega
      rw [all, zeros, rvvmStrcmp_eq r.text same, decide_eq_false differs] at round
      rw [← same, drop_length, same, place] at after
      rw [round]
      refine ih later after (Nat.le_of_succ_le_succ enough) ?_ ?_
      · rw [← same, take_left]
      · · rw [← same, drop_left]

theorem rvvmSnapshotSection_reads (readable : Readable sections (r :: requested))
    (reading : Reading snap pos (layout pos sections)) :
    ∃ pos' rest, (rvvmSnapshotSection cb snap r.name).1 = true ∧
      (rvvmSnapshotSection cb snap r.name).2.off = ofNat 64 (pos' + r.bytes.length) ∧
      Readable rest requested ∧
      Reading (rvvmSnapshotSection cb snap r.name).2 pos' (r.bytes ++ layout (pos' + r.bytes.length) rest) := by
  have short := r.short
  have call : rvvmSnapshotSection cb snap r.name = sectionLoop cb r.name r.name.length (snap.blk.size.toNat + 1)
      (replicate 256 0) snap := by
    simp only [rvvmSnapshotSection, reading.clean, Bool.false_eq_true, if_false, reading.out,
      if_neg (Nat.not_lt.mpr short)]
  have many : sections.length ≤ (layout pos sections).length := by
    have positive : ∀ size ∈ sections.map SnapSection.size, 1 ≤ size := by
      intro size member
      obtain ⟨s, -, rfl⟩ := mem_map.mp member
      rw [SnapSection.size]
      omega
    have count := length_le_sum_of_one_le _ positive
    rwa [length_map, ← length_layout pos] at count
  have inside := reading.inside
  have size : ((replicate 256 (0 : Byte)).take r.name.length).length = r.name.length := by
    rw [length_take, length_replicate]
    omega
  have zeros : (replicate 256 (0 : Byte)).drop r.name.length = replicate
    (255 - r.name.length + 1) 0 := by
    rw [drop_replicate]
    congr 1
    omega
  obtain ⟨snap', pos', rest, runs, off, -, later, after⟩ := sectionLoop_reads whole readable reading
    (by omega : sections.length ≤ snap.blk.size.toNat + 1) size zeros
  rw [call, runs]
  exact ⟨pos', rest, rfl, off, later, after⟩

end

end Reader

theorem dataCalls_read {snap : Snap} {pos : Nat} {calls : List (BlkBackend × SnapCall)} {chunks : List (List Byte)}
    {rest : List Byte} {last : Nat}
    (script : calls.map Prod.snd = chunks.map fun chunk => .data (replicate chunk.length 0))
    (whole : ∀ call ∈ calls, ∀ off size, call.1.read off size = size)
    (reading : Reading snap pos (chunks.flatten ++ rest)) (off : snap.off = ofNat 64 last)
    (fits : pos + chunks.flatten.length ≤ last) (near : last < 2 ^ 63) :
    snapReplies snap calls = (chunks.map fun chunk => ⟨true, chunk⟩) ∧
      Reading (final snapStep snap calls) (pos + chunks.flatten.length) rest := by
  induction chunks generalizing snap pos calls with
  | nil =>
    rw [map_nil, map_eq_nil_iff] at script
    rw [script]
    exact ⟨rfl, reading⟩
  | cons chunk chunks ih =>
    obtain ⟨⟨cb, call⟩, calls, rfl, rfl, script'⟩ := map_eq_cons_iff.mp script
    rw [flatten_cons, append_assoc] at reading
    rw [flatten_cons, length_append] at fits ⊢
    obtain ⟨ok, bytes, off', after⟩ :=
      rvvmSnapshotData_reads (whole _ mem_cons_self) reading off (by omega) near
      (length_replicate (n := chunk.length))
    have step : snapStep snap (cb, .data (replicate chunk.length 0)) =
        (rvvmSnapshotData cb snap (replicate chunk.length 0)).2.2 := rfl
    obtain ⟨replies, final⟩ :=
      ih script' (fun call member => whole call (mem_cons_of_mem _ member)) after off'
      (by omega)
    rw [Nat.add_assoc] at final
    refine ⟨?_, final⟩
    rw [snapReplies, step, replies]
    congr 1
    change SnapReply.mk _ _ = _
    rw [ok, bytes]

theorem session_reads {requested sections : List SnapSection} {snap : Snap} {pos : Nat}
    {calls : List (BlkBackend × SnapCall)} (script : calls.map Prod.snd = readScript requested)
    (whole : ∀ call ∈ calls, ∀ off size, call.1.read off size = size) (readable : Readable sections requested)
    (reading : Reading snap pos (layout pos sections)) : snapReplies snap calls = expected requested := by
  induction requested generalizing sections snap pos calls with
  | nil =>
    rw [readScript, flatMap_nil, map_eq_nil_iff] at script
    rw [script]
    rfl
  | cons r requested ih =>
    obtain ⟨⟨cb, call⟩, calls, rfl, rfl, script'⟩ := map_eq_cons_iff.mp script
    obtain ⟨first, later, rfl, here, there⟩ := map_eq_append_iff.mp script'
    obtain ⟨pos', rest, ok, off, readable', after⟩ :=
      rvvmSnapshotSection_reads (whole _ mem_cons_self) readable reading
    have step : snapStep snap (cb, .sect r.name) = (rvvmSnapshotSection cb snap r.name).2 := rfl
    have near := after.near
    rw [length_append] at near
    obtain ⟨replies, final⟩ := dataCalls_read here
      (fun call member => whole call (mem_cons_of_mem _ (mem_append_left _ member))) after off
        (le_refl _)
      (by omega)
    have others := ih there
      (fun call member => whole call (mem_cons_of_mem _ (mem_append_right _ member))) readable' final
    rw [snapReplies, snapReplies_append, step, replies, others]
    congr 1
    change SnapReply.mk _ _ = _
    rw [ok]

theorem rvvmSnapshotData_err (cb : BlkBackend) (snap : Snap) (data : List Byte) :
    (rvvmSnapshotData cb snap data).2.2.err = snap.err := by
  unfold rvvmSnapshotData
  split
  · rfl
  · split
    · rfl
    · split <;> rfl

/-- An error is there at the end of a session if it was there before, or a header was not. -/
theorem session_err (snap : Snap) (calls : List (BlkBackend × SnapCall)) :
    (final snapStep snap calls).err = true ↔ snap.err = true ∨ ¬ AllSteps snapStep HeadersWhole snap calls := by
  induction calls generalizing snap with
  | nil => simp [AllSteps, final]
  | cons call calls ih =>
    rw [final, ih, AllSteps]
    obtain ⟨cb, name | data⟩ := call
    · cases failed : snap.err with
      | true =>
        have kept : snapStep snap (cb, .sect name) = snap := by
          change (rvvmSnapshotSection cb snap name).2 = snap
          rw [rvvmSnapshotSection, if_pos failed]
        simp [kept, failed]
      | false =>
        change (rvvmSnapshotSection cb snap name).2.err = true ∨ _ ↔ _
        simp [HeadersWhole, failed, imp_iff_not_or]
    · have kept : (snapStep snap (cb, .data data)).err = snap.err := rvvmSnapshotData_err cb snap data
      simp [kept, HeadersWhole]

def lettered (letter : Byte) (visible : letter ≠ 0) (bytes : List Byte) : SnapSection where
  name := [letter]
  chunks := [bytes]
  nonempty := cons_ne_nil _ _
  short := Nat.le_of_ble_eq_true rfl
  text := by
    intro c member
    rw [mem_singleton.mp member]
    exact visible

def sectionA : SnapSection := lettered 0x61 (by decide) [1, 2]
def sectionB : SnapSection := lettered 0x62 (by decide) [3]
def sectionC : SnapSection := lettered 0x63 (by decide) []

def emptyDisk : BlkDisk := ⟨true, true, true, 0, 0, fun _ => 0⟩

def served (calls : List SnapCall) : List (BlkBackend × SnapCall) := calls.map fun call => (wholeBackend, call)

theorem map_snd_served (calls : List SnapCall) : (served calls).map Prod.snd = calls := by
  rw [served, map_map]
  exact map_id calls

theorem pair_written : AllOk (rvvmSnapshotOpen emptyDisk true) (served (writeScript [sectionA, sectionB])) := by
  unfold AllOk
  decide +kernel

end Rvvm.Snapshot
