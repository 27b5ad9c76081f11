import Mathlib.Tactic

/-! Programs over a state that emit events as they run: accesses to memory, messages. What a program
emits and where it leaves the state are read off its parts. -/

/-- From a state, a value, the events in order, and the next state. -/
def Emitting (ε σ α : Type) := σ → α × List ε × σ

namespace Emitting
open List

variable {ε σ α β : Type}

def value (p : Emitting ε σ α) (s : σ) : α := (p s).1

def events (p : Emitting ε σ α) (s : σ) : List ε := (p s).2.1

def state (p : Emitting ε σ α) (s : σ) : σ := (p s).2.2

instance : Monad (Emitting ε σ) where
  pure a := fun s => (a, [], s)
  bind p f := fun s =>
    ((f (p.value s)).value (p.state s), p.events s ++ (f (p.value s)).events (p.state s),
      (f (p.value s)).state (p.state s))

def emit (event : ε) : Emitting ε σ Unit := fun s => ((), [event], s)

def read (f : σ → α) : Emitting ε σ α := fun s => (f s, [], s)

def modify (f : σ → σ) : Emitting ε σ Unit := fun s => ((), [], f s)

section Parts

variable (s : σ)

@[simp] theorem value_pure (a : α) : value (pure a : Emitting ε σ α) s = a := rfl

variable (p : Emitting ε σ α) (f : α → Emitting ε σ β)

@[simp] theorem value_bind : value (p >>= f) s = (f (p.value s)).value (p.state s) := rfl

@[simp] theorem events_bind : events (p >>= f) s = p.events s ++ (f (p.value s)).events (p.state s) := rfl

@[simp] theorem state_bind : state (p >>= f) s = (f (p.value s)).state (p.state s) := rfl

variable (c : Prop) [Decidable c] (q : Emitting ε σ α)

@[simp] theorem value_ite : value (if c then p else q) s = if c then p.value s else q.value s :=
  apply_ite (fun r => value r s) c p q

end Parts

/-! What holds of every event a program can emit. -/

def Always (ok : ε → Prop) (p : Emitting ε σ α) : Prop := ∀ s, ∀ event ∈ p.events s, ok event

namespace Always

variable {ok : ε → Prop} {p q : Emitting ε σ α}

theorem pure (a : α) : Always ok (Pure.pure a : Emitting ε σ α) :=
  nofun

theorem read (f : σ → α) : Always ok (Emitting.read f) :=
  nofun

theorem modify (f : σ → σ) : Always ok (Emitting.modify f) :=
  nofun

theorem emit {event : ε} (good : ok event) : Always ok (Emitting.emit event : Emitting ε σ Unit) := by
  intro s other member
  rw [mem_singleton.mp member]
  exact good

theorem bind {f : α → Emitting ε σ β} (first : Always ok p) (second : ∀ a, Always ok (f a)) :
    Always ok (p >>= f) := by
  intro s event member
  rcases mem_append.mp member with early | late
  · exact first s event early
  · exact second _ _ event late

theorem ite {c : Prop} [Decidable c] (yes : c → Always ok p) (no : ¬ c → Always ok q) :
    Always ok (if c then p else q) := by
  by_cases h : c
  · rw [if_pos h]
    exact yes h
  · rw [if_neg h]
    exact no h

theorem forM {xs : List β} {body : β → Emitting ε σ PUnit} (each : ∀ x ∈ xs, Always ok (body x)) :
    Always ok (xs.forM body) := by
  induction xs with
  | nil => exact pure _
  | cons x rest ih =>
    refine bind (each x mem_cons_self) fun _ => ih fun y member => ?_
    exact each y (mem_cons_of_mem x member)

end Always

/-! Pre- and postconditions. -/

/-- From a state that meets `pre`, the program ends as `post` says and emits only what is allowed. -/
def Triple (ok : ε → Prop) (pre : σ → Prop) (p : Emitting ε σ α) (post : α → σ → Prop) : Prop :=
  ∀ s, pre s → post (p.value s) (p.state s) ∧ ∀ event ∈ p.events s, ok event

namespace Triple

variable {ok : ε → Prop} {pre : σ → Prop} {p q : Emitting ε σ α} {post : α → σ → Prop}

theorem pure {a : α} (holds : ∀ s, pre s → post a s) : Triple ok pre (Pure.pure a : Emitting ε σ α) post :=
  fun s met => ⟨holds s met, nofun⟩

theorem bind {f : β → Emitting ε σ α} {first : Emitting ε σ β} {middle : β → σ → Prop}
    (early : Triple ok pre first middle) (late : ∀ b, Triple ok (middle b) (f b) post) :
    Triple ok pre (first >>= f) post := by
  intro s met
  obtain ⟨reached, before⟩ := early s met
  obtain ⟨ended, after⟩ := late (first.value s) (first.state s) reached
  refine ⟨ended, fun event member => ?_⟩
  rcases mem_append.mp member with member | member
  · exact before event member
  · exact after event member

theorem get {f : σ → Emitting ε σ α} (each : ∀ v, pre v → Triple ok (· = v) (f v) post) :
    Triple ok pre (Emitting.read id >>= f) post := fun s met => each s met s rfl

theorem step {g : σ → σ} {f : Unit → Emitting ε σ α} {v : σ} (rest : Triple ok (· = g v) (f ()) post) :
    Triple ok (· = v) (Emitting.modify g >>= f) post := by
  rintro s rfl
  exact rest (g s) rfl

theorem modify {f : σ → σ} {post : Unit → σ → Prop} (holds : ∀ s, pre s → post () (f s)) :
    Triple ok pre (Emitting.modify f) post :=
  fun s met => ⟨holds s met, nofun⟩

theorem emit {event : ε} (allowed : ok event) : Triple ok pre (Emitting.emit event) fun _ => pre := by
  refine fun s met => ⟨met, fun other member => ?_⟩
  rw [mem_singleton.mp member]
  exact allowed

theorem ite {c : Prop} [Decidable c] (yes : c → Triple ok pre p post) (no : ¬ c → Triple ok pre q post) :
    Triple ok pre (if c then p else q) post := by
  by_cases h : c
  · rw [if_pos h]
    exact yes h
  · rw [if_neg h]
    exact no h

theorem forM {body : β → Emitting ε σ PUnit} (once : ∀ b, Triple ok pre (body b) fun _ => pre) (bs : List β) :
    Triple ok pre (bs.forM body) fun _ => pre := by
  induction bs with
  | nil => exact .pure fun _ met => met
  | cons b bs ih => exact .bind (once b) fun _ => ih

theorem known {v : σ} (met : pre v) (triple : Triple ok pre p post) : Triple ok (· = v) p post := by
  rintro s rfl
  exact triple s met

end Triple

end Emitting
