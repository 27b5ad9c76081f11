import Mathlib.Data.BitVec
import Rvvm.Net.Tap
import Rvvm.Library.Runs

/-! The table of TCP connections, a map from hashes to vectors, against the list of the sockets that
are registered and not removed. -/
namespace Rvvm.Tap.Table
open List Runs
open Function (update update_of_ne update_self)

/-- A pointer to a socket, with the two addresses, which never change. -/
structure SockPtr where
  sock : Nat
  remote : NetAddr
  addr : NetAddr
  deriving DecidableEq

/-- A hash without an entry has no vector. -/
abbrev TcpMap := BitVec 64 → Option (List SockPtr)

def SockPtr.hash (ts : SockPtr) : BitVec 64 := tcpHashTuple ts.remote ts.addr

def tapTcpLookup (map : TcpMap) (r l : NetAddr) : Option SockPtr :=
  (map (tcpHashTuple r l)).bind (find? fun ts => ts.addr = l ∧ ts.remote = r)

def tapTcpRegister (map : TcpMap) (ts : SockPtr) : TcpMap :=
  update map ts.hash (some ((map ts.hash).getD [] ++ [ts]))

/-- The vector is searched from its end. -/
def eraseBack (vec : List SockPtr) (ts : SockPtr) : List SockPtr := (vec.reverse.erase ts).reverse

def tapTcpRemove (map : TcpMap) (ts : SockPtr) : TcpMap :=
  match map ts.hash with
  | none => map
  | some vec =>
    if ts ∈ vec then
      let vec := eraseBack vec ts
      update map ts.hash (if vec = [] then none else some vec)
    else map

inductive TableOp
  | register (ts : SockPtr)
  | remove (ts : SockPtr)
  | lookup (r l : NetAddr)

/-- The list without the last registration of the socket. -/
def unregister (ts : SockPtr) : List SockPtr → List SockPtr
  | [] => []
  | first :: rest => if first = ts ∧ ts ∉ rest then rest else first :: unregister ts rest

/-- The map and the sockets registered and not removed, the earliest first. -/
def tableStep (s : TcpMap × List SockPtr) : TableOp → TcpMap × List SockPtr
  | .register ts => (tapTcpRegister s.1 ts, s.2 ++ [ts])
  | .remove ts => (tapTcpRemove s.1 ts, unregister ts s.2)
  | .lookup _ _ => s

structure Exact (map : TcpMap) (live : List SockPtr) : Prop where
  found : ∀ r l, tapTcpLookup map r l = live.find? fun ts => ts.addr = l ∧ ts.remote = r
  filled : ∀ key, map key ≠ some []
  freed : ∀ key, (∀ ts ∈ live, ts.hash ≠ key) → map key = none

/-- A removal takes the socket out, unless it was registered twice, and no other. -/
structure TakesOut (s : TcpMap × List SockPtr) (ts : SockPtr) : Prop where
  gone : s.2.count ts ≤ 1 → ∀ r l, tapTcpLookup (tapTcpRemove s.1 ts) r l ≠ some ts
  kept : ∀ other ≠ ts, tapTcpLookup s.1 other.remote other.addr = some other →
    tapTcpLookup (tapTcpRemove s.1 ts) other.remote other.addr = some other

/-- The map that holds the given sockets. -/
def mapOf (live : List SockPtr) : TcpMap := fun key =>
  let vec := live.filter fun ts => ts.hash = key
  if vec = [] then none else some vec

variable (live : List SockPtr) (ts : SockPtr)

theorem mapOf_getD (key : BitVec 64) :
    (mapOf live key).getD [] = live.filter fun ts => ts.hash = key := by
  unfold mapOf
  dsimp only
  split
  next none => rw [none, Option.getD_none]
  · rfl

theorem register_mapOf :
    tapTcpRegister (mapOf live) ts = mapOf (live ++ [ts]) := by
  funext key
  unfold tapTcpRegister
  by_cases own : key = ts.hash
  · subst own
    rw [update_self, mapOf_getD, mapOf]
    simp
  · rw [update_of_ne own, mapOf, mapOf]
    simp [Ne.symm own]

theorem filter_eraseBack (key : BitVec 64) :
    (eraseBack live ts).filter (·.hash = key) = eraseBack (live.filter (·.hash = key)) ts := by
  rw [eraseBack, eraseBack, filter_reverse, ← erase_filter, filter_reverse]

theorem eraseBack_of_not_mem {vec : List SockPtr} (absent : ts ∉ vec) : eraseBack vec ts = vec := by
  rw [eraseBack, erase_of_not_mem (mt mem_reverse.mp absent), reverse_reverse]

theorem unregister_eq : unregister ts live = eraseBack live ts := by
  induction live with
  | nil => rfl
  | cons first rest ih =>
    rw [unregister, ih, eraseBack, eraseBack, reverse_cons, erase_append]
    by_cases later : ts ∈ rest
    · rw [if_neg fun both => both.2 later, if_pos (mem_reverse.mpr later), reverse_append]
      rfl
    · rw [if_neg (mt mem_reverse.mp later), erase_of_not_mem (mt mem_reverse.mp later), reverse_reverse,
        reverse_append, reverse_reverse]
      by_cases own : first = ts
      · rw [if_pos ⟨own, later⟩, own, erase_cons_head]
        rfl
      · rw [if_neg fun both => own both.1, erase_of_not_mem (by simpa using Ne.symm own)]
        rfl

theorem unregister_absent (single : live.count ts ≤ 1) : ts ∉ unregister ts live := by
  induction live with
  | nil => exact not_mem_nil
  | cons first rest ih =>
    unfold unregister
    by_cases own : first = ts
    · subst own
      rw [count_cons_self] at single
      have alone : first ∉ rest := count_eq_zero.mp (by omega)
      rw [if_pos ⟨rfl, alone⟩]
      exact alone
    · rw [count_cons_of_ne own] at single
      rw [if_neg fun both => own both.1, mem_cons, not_or]
      exact ⟨Ne.symm own, ih single⟩

theorem find?_unregister {other : SockPtr} (apart : other ≠ ts) {p : SockPtr → Bool}
    (found : live.find? p = some other) : (unregister ts live).find? p = some other := by
  induction live with
  | nil => cases found
  | cons first rest ih =>
    unfold unregister
    by_cases meets : p first = true
    · obtain rfl : first = other := by simpa [find?_cons, meets] using found
      rw [if_neg fun both => apart both.1, find?_cons_of_pos meets]
    · rw [find?_cons_of_neg meets] at found
      split
      · exact found
      · rw [find?_cons_of_neg meets]
        exact ih found

theorem remove_mapOf :
    tapTcpRemove (mapOf live) ts = mapOf (unregister ts live) := by
  rw [unregister_eq]
  have other {key : BitVec 64} (absent : ts ∉ live.filter (·.hash = key)) :
      mapOf live key = mapOf (eraseBack live ts) key := by
    rw [mapOf, mapOf, filter_eraseBack, eraseBack_of_not_mem _ absent]
  have apart {key : BitVec 64} (differ : key ≠ ts.hash) : ts ∉ live.filter (·.hash = key) :=
    fun member => differ (of_decide_eq_true (mem_filter.mp member).2).symm
  unfold tapTcpRemove
  by_cases member : ts ∈ live.filter (·.hash = ts.hash)
  · have bucket : mapOf live ts.hash =
        some (live.filter (·.hash = ts.hash)) := if_neg (ne_nil_of_mem member)
    rw [bucket]
    dsimp only
    rw [if_pos member]
    funext key
    by_cases own : key = ts.hash
    · subst own
      rw [update_self, mapOf, filter_eraseBack]
    · rw [update_of_ne own]
      exact other (apart own)
  · have same : mapOf live = mapOf (eraseBack live ts) := by
      funext key
      by_cases own : key = ts.hash
      · exact other (own ▸ member)
      · exact other (apart own)
    rw [← same]
    split
    · rfl
    next vec bucket =>
      have held : (mapOf live ts.hash).getD [] = vec := by rw [bucket]; rfl
      rw [mapOf_getD] at held
      exact if_neg (held ▸ member)

theorem mapOf_exact : Exact (mapOf live) live where
  found := by
    intro r l
    have lookup : tapTcpLookup (mapOf live) r l =
        ((mapOf live (tcpHashTuple r l)).getD []).find? fun ts => ts.addr = l ∧ ts.remote = r := by
      unfold tapTcpLookup
      cases mapOf live (tcpHashTuple r l) <;> rfl
    rw [lookup, mapOf_getD, find?_filter]
    refine congrArg live.find? (funext fun ts => decide_eq_decide.mpr ?_)
    rw [decide_eq_true_eq, decide_eq_true_eq, and_iff_right_iff_imp]
    rintro ⟨rfl, rfl⟩
    rfl
  filled := by
    intro key
    unfold mapOf
    dsimp only
    split
    · nofun
    next some => exact fun empty => some (Option.some.inj empty)
  freed := by
    intro key absent
    exact if_pos (filter_eq_nil_iff.mpr fun ts member same => absent ts member (of_decide_eq_true same))

theorem mapOf_takesOut : TakesOut (mapOf live, live) ts where
  gone := by
    intro single r l found
    rw [remove_mapOf, (mapOf_exact _).found] at found
    exact unregister_absent live ts single (mem_of_find?_eq_some found)
  kept := by
    intro other apart found
    rw [(mapOf_exact live).found] at found
    rw [remove_mapOf, (mapOf_exact _).found]
    exact find?_unregister live ts apart found

/-- After every sequence of calls, a lookup finds the earliest of the sockets registered and not removed
that has the two addresses, the map has a vector exactly for the hashes of such sockets, and a removal
takes out the given socket alone. -/
theorem table_exact (ops : List TableOp) :
    ∀ s ∈ visited tableStep (fun _ => none, []) ops, Exact s.1 s.2 ∧ ∀ ts, TakesOut s ts := by
  have keeps (s : TcpMap × List SockPtr) (op : TableOp) (is : s.1 = mapOf s.2) (_ : True) :
      (tableStep s op).1 = mapOf (tableStep s op).2 := by
    cases op with
    | register ts => rw [tableStep, is, register_mapOf]
    | remove ts => rw [tableStep, is, remove_mapOf]
    | lookup r l => exact is
  intro s reached
  have is := invariant keeps (s := (fun _ => none, [])) rfl (.always (fun _ _ => trivial) _ ops) s reached
  rw [show s = (mapOf s.2, s.2) from Prod.ext is rfl]
  exact ⟨mapOf_exact s.2, mapOf_takesOut s.2⟩

theorem table_exact_collision :
    let near : SockPtr := ⟨0, ⟨.ipv4, 1, 0⟩, ⟨.ipv4, 0, 0⟩⟩
    let far : SockPtr := ⟨1, ⟨.ipv4, 0, 0⟩, ⟨.ipv4, 0, Pi.single 2 1⟩⟩
    let s := final tableStep (fun _ => none, []) [.register near, .register far]
    near.hash = far.hash ∧ tapTcpLookup s.1 far.remote far.addr = some far ∧
      tapTcpLookup (tapTcpRemove s.1 near) near.remote near.addr ≠ some near ∧
        tapTcpLookup (tapTcpRemove s.1 near) far.remote far.addr = some far := by
  intro near far s
  obtain ⟨exact, takesOut⟩ := table_exact _ s (final_mem_visited _ _)
  have found : tapTcpLookup s.1 far.remote far.addr = some far := (exact.found _ _).trans (by decide)
  exact ⟨by decide, found, (takesOut near).gone (by decide) _ _, (takesOut near).kept far (by decide) found⟩

end Rvvm.Tap.Table
