import Mathlib.Data.List.Nodup

/-!
# Bounded maps that forget their oldest key

A map of at most `capacity` keys. A key that is present keeps its place when it gets a new value;
a key that is absent comes in front, and the last one falls out when there is no room. The place
of a key is the number of insertions since its own, which is what `Tracks` says of a history.
-/

namespace NetStack.Lib

/-- A list of keys with their values, the key that was inserted last in front. -/
structure FifoMap (κ α : Type) (capacity : Nat) where
  entries : List (κ × α)
  bound : entries.length ≤ capacity
  distinct : (entries.map Prod.fst).Nodup

namespace FifoMap

variable {κ α : Type} {capacity : Nat}

def empty : FifoMap κ α capacity := ⟨[], Nat.zero_le capacity, List.nodup_nil⟩

def keys (m : FifoMap κ α capacity) : List κ := m.entries.map Prod.fst

@[simp] theorem keys_empty : (empty : FifoMap κ α capacity).keys = [] := rfl

theorem length_keys_le (m : FifoMap κ α capacity) : m.keys.length ≤ capacity := by
  rw [keys, List.length_map]
  exact m.bound

/-- A key has one value. -/
theorem eq_of_mem (m : FifoMap κ α capacity) {k : κ} {v v' : α} (h : (k, v) ∈ m.entries)
    (h' : (k, v') ∈ m.entries) : v = v' := by
  have hsame := List.inj_on_of_nodup_map m.distinct h h' rfl
  exact (Prod.mk.inj hsame).2

/-- A key that is absent comes in front. -/
def insert (m : FifoMap κ α capacity) (e : κ × α) (h : e.1 ∉ m.keys) : FifoMap κ α capacity where
  entries := (e :: m.entries).take capacity
  bound := by
    rw [List.length_take]
    exact Nat.min_le_left capacity _
  distinct := by
    rw [List.map_take]
    exact (List.nodup_cons.mpr ⟨h, m.distinct⟩).sublist (List.take_sublist _ _)

@[simp] theorem keys_insert (m : FifoMap κ α capacity) (e : κ × α) (h : e.1 ∉ m.keys) :
    (m.insert e h).keys = (e.1 :: m.keys).take capacity := by
  rw [keys, insert, List.map_take]
  rfl

/-- After a history, `since k` is the number of insertions since `k` was inserted, and `latest k`
    the value that `k` was given last. -/
structure Tracks (m : FifoMap κ α capacity) (since : κ → Option Nat) (latest : κ → Option α) :
    Prop where
  place : ∀ k, ∀ i < capacity, m.keys[i]? = some k ↔ since k = some i
  value : ∀ k v, (k, v) ∈ m.entries → latest k = some v

theorem tracks_empty : Tracks (empty : FifoMap κ α capacity) (fun _ => none) fun _ => none :=
  ⟨by simp, fun _ _ h => absurd h List.not_mem_nil⟩

variable [DecidableEq κ]

def lookup (m : FifoMap κ α capacity) (k : κ) : Option α :=
  (m.entries.find? fun e => e.1 = k).map Prod.snd

theorem lookup_eq_some_iff {m : FifoMap κ α capacity} {k : κ} {v : α} :
    m.lookup k = some v ↔ (k, v) ∈ m.entries := by
  unfold lookup
  constructor
  · intro h
    obtain ⟨⟨k', v'⟩, hfind, rfl⟩ := Option.map_eq_some_iff.mp h
    obtain rfl : k' = k := by simpa using List.find?_some hfind
    exact List.mem_of_find?_eq_some hfind
  · intro h
    cases hfind : m.entries.find? fun e => e.1 = k with
    | none => simpa using List.find?_eq_none.mp hfind _ h
    | some e =>
        obtain ⟨k', v'⟩ := e
        obtain rfl : k' = k := by simpa using List.find?_some hfind
        rw [m.eq_of_mem h (List.mem_of_find?_eq_some hfind)]
        rfl

theorem lookup_eq_none_iff {m : FifoMap κ α capacity} {k : κ} :
    m.lookup k = none ↔ k ∉ m.keys := by
  rw [lookup, Option.map_eq_none_iff, List.find?_eq_none]
  constructor
  · intro h hmem
    obtain ⟨e, he, hk⟩ := List.mem_map.mp hmem
    exact h e he (by simpa using hk)
  · intro h e he hk
    exact h (List.mem_map.mpr ⟨e, he, by simpa using hk⟩)

/-! ### Storing a value -/

/-- A pair after `e` has been stored into a map that has its key. -/
def overwrite (e pair : κ × α) : κ × α := if pair.1 = e.1 then e else pair

@[simp] theorem overwrite_fst (e pair : κ × α) : (overwrite e pair).1 = pair.1 := by
  unfold overwrite
  split
  case isTrue h => exact h.symm
  case isFalse => rfl

/-- A key that is present gets a new value and keeps its place. -/
def replace (m : FifoMap κ α capacity) (e : κ × α) : FifoMap κ α capacity where
  entries := m.entries.map (overwrite e)
  bound := by
    rw [List.length_map]
    exact m.bound
  distinct := by
    rw [List.map_map]
    exact (List.map_congr_left fun pair _ => overwrite_fst e pair) ▸ m.distinct

def put (m : FifoMap κ α capacity) (e : κ × α) : FifoMap κ α capacity :=
  if h : e.1 ∈ m.keys then m.replace e else m.insert e h

@[simp] theorem keys_replace (m : FifoMap κ α capacity) (e : κ × α) :
    (m.replace e).keys = m.keys := by
  rw [keys, replace, List.map_map]
  exact List.map_congr_left fun pair _ => overwrite_fst e pair

/-! ### The history of a map -/

/-- The number of insertions since that of `k`, after `e` has been stored. -/
def sinceAfter (m : FifoMap κ α capacity) (e : κ × α) (k : κ) (since : Option Nat) : Option Nat :=
  if e.1 ∈ m.keys then since else if e.1 = k then some 0 else since.map (· + 1)

variable {m : FifoMap κ α capacity} {since : κ → Option Nat} {latest : κ → Option α}

theorem Tracks.replace (h : Tracks m since latest) (e : κ × α) :
    Tracks (m.replace e) since fun k => if e.1 = k then some e.2 else latest k := by
  constructor
  · intro k i hi
    rw [keys_replace]
    exact h.place k i hi
  · intro k v hmem
    obtain ⟨⟨k', v'⟩, hpair, heq⟩ := List.mem_map.mp hmem
    unfold overwrite at heq
    split at heq
    case isTrue =>
        subst heq
        exact if_pos rfl
    case isFalse hne =>
        obtain ⟨rfl, rfl⟩ := Prod.mk.inj heq
        rw [if_neg (Ne.symm hne)]
        exact h.value _ _ hpair

theorem Tracks.insert (h : Tracks m since latest) (e : κ × α) (he : e.1 ∉ m.keys) :
    Tracks (m.insert e he) (fun k => if e.1 = k then some 0 else (since k).map (· + 1))
      fun k => if e.1 = k then some e.2 else latest k := by
  constructor
  · intro k i hi
    rw [keys_insert, List.getElem?_take_of_lt hi]
    cases i with
    | zero => by_cases hk : e.1 = k <;> simp [hk]
    | succ i =>
        rw [List.getElem?_cons_succ, h.place k i (Nat.lt_of_succ_lt hi)]
        by_cases hk : e.1 = k
        · -- a key that is absent has no place
          subst hk
          refine ⟨fun hsince => ?_, fun hsince => by simp at hsince⟩
          have hplace := (h.place e.1 i (Nat.lt_of_succ_lt hi)).mpr hsince
          exact absurd (List.mem_of_getElem? hplace) he
        · simp [hk]
  · intro k v hmem
    have hmem := List.mem_of_mem_take hmem
    rcases List.mem_cons.mp hmem with heq | hmem
    · subst heq
      exact if_pos rfl
    · have hne : e.1 ≠ k := by
        rintro rfl
        exact he (List.mem_map.mpr ⟨_, hmem, rfl⟩)
      rw [if_neg hne]
      exact h.value k v hmem

/-- One more value is stored. -/
theorem Tracks.put (h : Tracks m since latest) (e : κ × α) :
    Tracks (m.put e) (fun k => sinceAfter m e k (since k))
      fun k => if e.1 = k then some e.2 else latest k := by
  unfold FifoMap.put sinceAfter
  by_cases he : e.1 ∈ m.keys
  · simp only [dif_pos he, if_pos he]
    exact h.replace e
  · simp only [dif_neg he, if_neg he]
    exact h.insert e he

/-- A key is present until `capacity` insertions have come after its own. -/
theorem Tracks.lookup_some (h : Tracks m since latest) {k : κ} {n : Nat}
    (hsince : since k = some n) (hn : n < capacity) :
    ∃ v, latest k = some v ∧ m.lookup k = some v := by
  have hplace := List.mem_of_getElem? ((h.place k n hn).mpr hsince)
  obtain ⟨⟨k', v⟩, hmem, rfl⟩ := List.mem_map.mp hplace
  exact ⟨v, h.value _ _ hmem, lookup_eq_some_iff.mpr hmem⟩

theorem Tracks.lookup_none (h : Tracks m since latest) {k : κ}
    (hsince : ∀ n, since k = some n → capacity ≤ n) : m.lookup k = none := by
  rw [lookup_eq_none_iff]
  intro hmem
  obtain ⟨i, hi, hk⟩ := List.getElem_of_mem hmem
  have hlt : i < capacity := Nat.lt_of_lt_of_le hi m.length_keys_le
  have hplace : m.keys[i]? = some k := by rw [List.getElem?_eq_getElem hi, hk]
  have hle := hsince i ((h.place k i hlt).mp hplace)
  omega

end FifoMap

end NetStack.Lib
