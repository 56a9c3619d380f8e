import Mathlib.Data.List.Basic
import Mathlib.Data.List.Range

/-!
# Byte memory behind a pointer

A pointer into a block is the function that gives the byte at every offset from it. Loads
and stores of multi-byte values are little-endian, as on the host; `load` reads a stretch as
a list. A store changes the stretch it covers and nothing else, and a read of the same
stretch returns what was stored.
-/

namespace NetStack.Lib

/-- The bytes at the offsets from a pointer. -/
abbrev Memory := Nat → BitVec 8

namespace Memory

/-- `memcpy(p + off, bytes, n)`. -/
def store (m : Memory) (off : Nat) (bytes : List (BitVec 8)) : Memory := fun i =>
  if i < off then m i else (bytes[i - off]?).getD (m i)

/-- The `n` bytes at `p + off`. -/
def load (m : Memory) (off n : Nat) : List (BitVec 8) := (List.range n).map fun k => m (off + k)

/-- `p + off`. -/
def advance (m : Memory) (off : Nat) : Memory := fun i => m (off + i)

/-- The bytes of a list, and zeros behind them. -/
def ofBytes (bytes : List (BitVec 8)) : Memory := fun i => bytes.getD i 0

/-- A 16-bit load on a little-endian host. -/
def load16 (m : Memory) (off : Nat) : BitVec 16 := m (off + 1) ++ m off

/-- A 32-bit load on a little-endian host. -/
def load32 (m : Memory) (off : Nat) : BitVec 32 :=
  m (off + 3) ++ m (off + 2) ++ m (off + 1) ++ m off

/-- A 16-bit store on a little-endian host. -/
def store16 (m : Memory) (off : Nat) (v : BitVec 16) : Memory :=
  m.store off [v.extractLsb' 0 8, v.extractLsb' 8 8]

/-- A 32-bit store on a little-endian host. -/
def store32 (m : Memory) (off : Nat) (v : BitVec 32) : Memory :=
  m.store off [v.extractLsb' 0 8, v.extractLsb' 8 8, v.extractLsb' 16 8, v.extractLsb' 24 8]

/-- `memmove(p + dst, p + src, n)`: the source is read before the destination is written. -/
def move (m : Memory) (dst src n : Nat) : Memory := m.store dst (m.load src n)

variable (m : Memory)

theorem store_before {off i : Nat} (bytes : List (BitVec 8)) (h : i < off) :
    m.store off bytes i = m i := by
  simp [store, h]

theorem store_after {off i : Nat} (bytes : List (BitVec 8)) (h : off + bytes.length ≤ i) :
    m.store off bytes i = m i := by
  have hnone : bytes[i - off]? = none := List.getElem?_eq_none (by omega)
  simp [store, hnone]

/-- A store leaves every byte outside its stretch alone. -/
theorem store_outside {off i : Nat} (bytes : List (BitVec 8))
    (h : i < off ∨ off + bytes.length ≤ i) : m.store off bytes i = m i := by
  rcases h with h | h
  · exact m.store_before bytes h
  · exact m.store_after bytes h

theorem store_inside (off : Nat) {k : Nat} (bytes : List (BitVec 8)) (h : k < bytes.length) :
    m.store off bytes (off + k) = bytes[k] := by
  simp [store, h]

/-- A stretch that is stored twice holds what was stored last. -/
theorem store_store (off : Nat) {bytes bytes' : List (BitVec 8)}
    (h : bytes.length = bytes'.length) :
    (m.store off bytes).store off bytes' = m.store off bytes' := by
  funext i
  by_cases hinside : off ≤ i ∧ i < off + bytes'.length
  · obtain ⟨k, rfl⟩ := Nat.exists_eq_add_of_le hinside.1
    have hk : k < bytes'.length := by omega
    rw [store_inside _ off bytes' hk, store_inside _ off bytes' hk]
  · have houtside : i < off ∨ off + bytes'.length ≤ i := by omega
    rw [store_outside _ bytes' houtside, store_outside _ bytes' houtside,
      store_outside _ bytes (by omega)]

@[simp] theorem load_length (off n : Nat) : (m.load off n).length = n := by simp [load]

theorem load_getElem {off n k : Nat} (h : k < (m.load off n).length) :
    (m.load off n)[k] = m (off + k) := by
  simp [load]

/-- Reading back a stored stretch. -/
theorem load_store (off : Nat) (bytes : List (BitVec 8)) :
    (m.store off bytes).load off bytes.length = bytes := by
  apply List.ext_getElem (by simp)
  intro k h₁ h₂
  rw [load_getElem, m.store_inside off bytes h₂]

/-- Reading a stretch that a store does not touch. -/
theorem load_store_disjoint {off n off' : Nat} (bytes : List (BitVec 8))
    (h : off + n ≤ off' ∨ off' + bytes.length ≤ off) :
    (m.store off' bytes).load off n = m.load off n := by
  apply List.ext_getElem (by simp)
  intro k h₁ h₂
  rw [load_getElem, load_getElem, m.store_outside bytes]
  simp only [load_length] at h₁
  omega

/-- Two stretches with the same bytes. -/
theorem load_congr {m m' : Memory} {off off' n : Nat} (h : ∀ k < n, m (off + k) = m' (off' + k)) :
    m.load off n = m'.load off' n := by
  apply List.ext_getElem (by simp)
  intro k h₁ h₂
  rw [load_getElem, load_getElem, h k (by simpa using h₁)]

/-- A stretch in two parts. -/
theorem load_add (off n n' : Nat) : m.load off (n + n') = m.load off n ++ m.load (off + n) n' := by
  simp only [load, List.range_add, List.map_append, List.map_map]
  refine congrArg _ (List.map_congr_left fun k _ => ?_)
  rw [Function.comp_apply, Nat.add_assoc]

theorem load_ofBytes (bytes : List (BitVec 8)) :
    (ofBytes bytes).load 0 bytes.length = bytes := by
  apply List.ext_getElem (by simp)
  intro k h₁ h₂
  simp [load_getElem, ofBytes, List.getElem?_eq_getElem h₂]

theorem load_advance (off off' n : Nat) :
    (m.advance off).load off' n = m.load (off + off') n :=
  load_congr fun k _ => by rw [advance, Nat.add_assoc]

/-- A block that is written from its beginning to its end. -/
theorem load_store_end {off n : Nat} (bytes : List (BitVec 8)) (h : n = off + bytes.length) :
    (m.store off bytes).load 0 n = m.load 0 off ++ bytes := by
  rw [h, load_add, load_store_disjoint _ _ (.inl (by omega)), Nat.zero_add, load_store]

/-- Part of a known stretch is overwritten. -/
theorem load_store_middle {n : Nat} (before : List (BitVec 8)) {bytes after : List (BitVec 8)}
    (bytes' : List (BitVec 8))
    (h : m.load 0 n = before ++ bytes ++ after) (hlen : bytes'.length = bytes.length) :
    (m.store before.length bytes').load 0 n = before ++ bytes' ++ after := by
  have hn : n = before.length + bytes.length + after.length := by
    simpa [Nat.add_assoc] using congrArg List.length h
  subst hn
  rw [load_add, load_add] at h
  obtain ⟨hfront, hafter⟩ := List.append_inj h (by simp)
  obtain ⟨hbefore, -⟩ := List.append_inj hfront (by simp)
  rw [load_add, load_add, load_store_disjoint _ _ (.inl (by omega)), hbefore, Nat.zero_add,
    ← hlen, load_store, Nat.zero_add, load_store_disjoint _ _ (.inr (by omega)), hlen]
  rw [Nat.zero_add] at hafter
  rw [hafter]

/-- The beginning of a stretch. -/
theorem load_take (off : Nat) {n n' : Nat} (h : n ≤ n') : m.load off n = (m.load off n').take n := by
  obtain ⟨d, rfl⟩ := Nat.exists_eq_add_of_le h
  rw [load_add, List.take_append_of_le_length (by simp), List.take_of_length_le (by simp)]

/-- A byte of a stretch whose contents are known. -/
theorem byte_of_load {off n : Nat} {l : List (BitVec 8)} (h : m.load off n = l) {k : Nat}
    (hk : k < l.length) : m (off + k) = l[k] := by
  subst h
  rw [load_getElem]

/-- A move puts the source stretch at the destination. -/
theorem move_inside (dst src : Nat) {n k : Nat} (h : k < n) :
    m.move dst src n (dst + k) = m (src + k) := by
  rw [move, m.store_inside dst _ (by simpa using h), load_getElem]

/-- Only the bytes a 16-bit load covers matter to it. -/
theorem load16_congr {m m' : Memory} {off off' : Nat} (h₀ : m off = m' off')
    (h₁ : m (off + 1) = m' (off' + 1)) : m.load16 off = m'.load16 off' := by
  simp [load16, h₀, h₁]

/-- Only the bytes a 32-bit load covers matter to it. -/
theorem load32_congr {m m' : Memory} {off off' : Nat} (h : ∀ k < 4, m (off + k) = m' (off' + k)) :
    m.load32 off = m'.load32 off' := by
  have h0 := h 0 (by omega)
  have h1 := h 1 (by omega)
  have h2 := h 2 (by omega)
  have h3 := h 3 (by omega)
  simp only [Nat.add_zero] at h0
  simp [load32, h0, h1, h2, h3]

/-- A 16-bit load that a store does not touch. -/
theorem load16_store_outside {off off' : Nat} (bytes : List (BitVec 8))
    (h : off + 2 ≤ off' ∨ off' + bytes.length ≤ off) :
    (m.store off' bytes).load16 off = m.load16 off :=
  load16_congr (m.store_outside bytes (by omega)) (m.store_outside bytes (by omega))

/-- A 32-bit load that a store does not touch. -/
theorem load32_store_outside {off off' : Nat} (bytes : List (BitVec 8))
    (h : off + 4 ≤ off' ∨ off' + bytes.length ≤ off) :
    (m.store off' bytes).load32 off = m.load32 off :=
  load32_congr fun k hk => m.store_outside bytes (by omega)

theorem store_singleton (off : Nat) (b : BitVec 8) : m.store off [b] off = b := by
  simpa using m.store_inside off (k := 0) [b] (by simp)

theorem load16_store16 (off : Nat) (v : BitVec 16) : (m.store16 off v).load16 off = v := by
  have h0 := m.store_inside off (k := 0) [v.extractLsb' 0 8, v.extractLsb' 8 8] (by simp)
  have h1 := m.store_inside off (k := 1) [v.extractLsb' 0 8, v.extractLsb' 8 8] (by simp)
  simp only [Nat.add_zero] at h0
  rw [load16, store16, h0, h1]
  ext i hi
  simp
  grind

theorem load32_store32 (off : Nat) (v : BitVec 32) : (m.store32 off v).load32 off = v := by
  let bytes := [v.extractLsb' 0 8, v.extractLsb' 8 8, v.extractLsb' 16 8, v.extractLsb' 24 8]
  have h0 := m.store_inside off (k := 0) bytes (by simp [bytes])
  have h1 := m.store_inside off (k := 1) bytes (by simp [bytes])
  have h2 := m.store_inside off (k := 2) bytes (by simp [bytes])
  have h3 := m.store_inside off (k := 3) bytes (by simp [bytes])
  simp only [Nat.add_zero] at h0
  change (m.store off bytes).load32 off = v
  rw [load32, h0, h1, h2, h3]
  ext i hi
  simp [bytes]
  grind

/-- The memories hold the same bytes below `n`. -/
def AgreeBelow (n : Nat) (m m' : Memory) : Prop := ∀ k < n, m' k = m k

theorem AgreeBelow.load {n off len : Nat} {m m' : Memory} (h : AgreeBelow n m m')
    (hle : off + len ≤ n) : m'.load off len = m.load off len :=
  load_congr fun _ hk => h _ (by omega)

theorem agreeBelow_of_load {n : Nat} {m m' : Memory} (h : m'.load 0 n = m.load 0 n) :
    AgreeBelow n m m' := by
  intro k hk
  have hbyte := m'.byte_of_load h (k := k) (by simpa using hk)
  rwa [load_getElem, Nat.zero_add] at hbyte

/-- At `m` the function uses no byte at or beyond `n`. -/
def ReadsBelow {β : Type} (n : Nat) (f : Memory → β) (m : Memory) : Prop :=
  ∀ m', AgreeBelow n m m' → f m' = f m

theorem ReadsBelow.mono {β : Type} {n n' : Nat} {f : Memory → β} {m : Memory} (hle : n ≤ n')
    (h : ReadsBelow n f m) : ReadsBelow n' f m :=
  fun m' hm => h m' fun k hk => hm k (Nat.lt_of_lt_of_le hk hle)

/-- The bytes of `m` below `n`, and those of `rest` from there on. -/
def upTo (m : Memory) (n : Nat) (rest : Memory) : Memory := fun k => if k < n then m k else rest k

theorem agreeBelow_upTo (n : Nat) (m rest : Memory) : AgreeBelow n m (m.upTo n rest) :=
  fun _ hk => if_pos hk

/-- Two ways to go on after `n` bytes with different results: a byte beyond is used. -/
theorem not_readsBelow {β : Type} {n : Nat} {f : Memory → β} {m : Memory} (rest rest' : Memory)
    (hne : f (m.upTo n rest) ≠ f (m.upTo n rest')) : ¬ ReadsBelow n f m := fun h =>
  hne ((h _ (agreeBelow_upTo n m rest)).trans (h _ (agreeBelow_upTo n m rest')).symm)

/-- Whatever is in memory, the function changes no byte at or beyond `n`. -/
def WritesBelow (n : Nat) (fill : Memory → Memory) : Prop := ∀ m k, n ≤ k → fill m k = m k

end Memory

end NetStack.Lib
