import NetStack.Lib.Memory
import Mathlib.Data.Set.Function
import Mathlib.Order.Interval.Set.Basic

/-!
# Memories that are filled alike

Two blocks with different contents into which the same bytes are written come to agree on what
has been written. What is then read from where they agree does not depend on what was in the
blocks before.
-/

namespace NetStack.Lib.Memory

variable {m m' : Memory} {s : Set Nat}

/-- Blocks of which nothing is known agree nowhere. -/
theorem eqOn_empty (m m' : Memory) : Set.EqOn m m' ∅ := fun _ h => absurd h (Set.notMem_empty _)

/-- A store of the same bytes extends the agreement by its stretch. -/
theorem eqOn_store (h : Set.EqOn m m' s) (off : Nat) (bytes : List (BitVec 8)) :
    Set.EqOn (m.store off bytes) (m'.store off bytes)
      (s ∪ Set.Ico off (off + bytes.length)) := by
  intro k hk
  by_cases hinside : off ≤ k ∧ k < off + bytes.length
  · obtain ⟨i, rfl⟩ := Nat.exists_eq_add_of_le hinside.1
    have hi : i < bytes.length := by omega
    rw [m.store_inside off bytes hi, m'.store_inside off bytes hi]
  · have houtside : k < off ∨ off + bytes.length ≤ k := by omega
    rw [m.store_outside bytes houtside, m'.store_outside bytes houtside]
    exact h (hk.resolve_right hinside)

theorem eqOn_store16 (h : Set.EqOn m m' s) (off : Nat) (v : BitVec 16) :
    Set.EqOn (m.store16 off v) (m'.store16 off v) (s ∪ Set.Ico off (off + 2)) :=
  eqOn_store h off _

theorem eqOn_store32 (h : Set.EqOn m m' s) (off : Nat) (v : BitVec 32) :
    Set.EqOn (m.store32 off v) (m'.store32 off v) (s ∪ Set.Ico off (off + 4)) :=
  eqOn_store h off _

/-- A store of the same bytes keeps what agrees. -/
theorem eqOn_store_of_eqOn (h : Set.EqOn m m' s) (off : Nat) (bytes : List (BitVec 8)) :
    Set.EqOn (m.store off bytes) (m'.store off bytes) s :=
  (eqOn_store h off bytes).mono Set.subset_union_left

/-- What is moved from where the blocks agree agrees where it is moved to. -/
theorem eqOn_move {src n : Nat} (h : Set.EqOn m m' (Set.Ico src (src + n))) (dst : Nat) :
    Set.EqOn (m.move dst src n) (m'.move dst src n) (Set.Ico dst (dst + n)) := by
  rintro k ⟨hlow, hhigh⟩
  obtain ⟨i, rfl⟩ := Nat.exists_eq_add_of_le hlow
  have hi : i < n := by omega
  rw [m.move_inside dst src hi, m'.move_inside dst src hi]
  exact h ⟨Nat.le_add_right src i, Nat.add_lt_add_left hi src⟩

/-- Reading where the blocks agree. -/
theorem load_eq_of_eqOn {off n : Nat} (h : Set.EqOn m m' (Set.Ico off (off + n))) :
    m.load off n = m'.load off n :=
  load_congr fun k hk => h ⟨Nat.le_add_right off k, Nat.add_lt_add_left hk off⟩

end NetStack.Lib.Memory
