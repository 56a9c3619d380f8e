import NetStack.Lib.Memory

/-!
# Programs that read a buffer

`Reading α` is a program that ends with a value of `α` and knows of a buffer only the bytes it
has read: it asks for one byte after the other, and what it does next depends on the answers.
So the offsets it asks for are all that it reads, which `Inside` bounds.
-/

namespace NetStack.Lib

/-- A program that ends, or reads the byte at an offset and goes on. -/
inductive Reading (α : Type) where
  | done (a : α)
  | byte (off : Nat) (next : BitVec 8 → Reading α)

namespace Reading

variable {α β : Type}

/-- What the program ends with on the buffer `m`. -/
def run (m : Memory) : Reading α → α
  | .done a => a
  | .byte off next => (next (m off)).run m

/-- The offsets that the program reads on the buffer `m`, in their order. -/
def reads (m : Memory) : Reading α → List Nat
  | .done _ => []
  | .byte off next => off :: (next (m off)).reads m

/-- Sequencing. -/
def bind : Reading α → (α → Reading β) → Reading β
  | .done a, k => k a
  | .byte off next, k => .byte off fun b => (next b).bind k

instance : Monad Reading where
  pure := .done
  bind := .bind

/-- Read a byte. -/
def load8 (off : Nat) : Reading (BitVec 8) := .byte off .done

/-- Read 16 bits on a little-endian host. -/
def load16 (off : Nat) : Reading (BitVec 16) := do
  let b0 ← load8 off
  let b1 ← load8 (off + 1)
  return b1 ++ b0

/-- Read 32 bits on a little-endian host. -/
def load32 (off : Nat) : Reading (BitVec 32) := do
  let b0 ← load8 off
  let b1 ← load8 (off + 1)
  let b2 ← load8 (off + 2)
  let b3 ← load8 (off + 3)
  return b3 ++ b2 ++ b1 ++ b0

/-- Read `n` bytes. -/
def load (off : Nat) : Nat → Reading (List (BitVec 8))
  | 0 => return []
  | n + 1 => do
      let bytes ← load off n
      let b ← load8 (off + n)
      return bytes ++ [b]

/-- On the buffer `m` the program reads no byte at or beyond `n`. -/
def Inside (n : Nat) (m : Memory) (r : Reading α) : Prop := ∀ off ∈ r.reads m, off < n

variable (m : Memory) {n : Nat}

@[simp] theorem run_pure (a : α) : (pure a : Reading α).run m = a := rfl
@[simp] theorem run_load8 (off : Nat) : (load8 off).run m = m off := rfl

@[simp] theorem run_bind (r : Reading α) (k : α → Reading β) :
    (r >>= k).run m = (k (r.run m)).run m := by
  induction r with
  | done a => rfl
  | byte off next ih => exact ih (m off)

@[simp] theorem run_load16 (off : Nat) : (load16 off).run m = m.load16 off := rfl
@[simp] theorem run_load32 (off : Nat) : (load32 off).run m = m.load32 off := rfl

@[simp] theorem run_load (off n : Nat) : (load off n).run m = m.load off n := by
  induction n with
  | zero => rfl
  | succ n ih =>
      rw [m.load_add off n 1, ← ih]
      simp [load, Memory.load]

theorem reads_bind (r : Reading α) (k : α → Reading β) :
    (r >>= k).reads m = r.reads m ++ (k (r.run m)).reads m := by
  induction r with
  | done a => rfl
  | byte off next ih => exact congrArg (off :: ·) (ih (m off))

@[simp] theorem inside_pure (a : α) : (pure a : Reading α).Inside n m := by
  intro off hoff
  cases hoff

@[simp] theorem inside_load8 {off : Nat} : (load8 off).Inside n m ↔ off < n :=
  List.forall_mem_singleton

/-- A sequence stays inside if both parts do. -/
@[simp] theorem inside_bind {r : Reading α} {k : α → Reading β} :
    (r >>= k).Inside n m ↔ r.Inside n m ∧ (k (r.run m)).Inside n m := by
  unfold Inside
  rw [reads_bind, List.forall_mem_append]

@[simp] theorem inside_load16 {off : Nat} : (load16 off).Inside n m ↔ off + 1 < n := by
  simp only [load16, inside_bind, inside_load8, inside_pure, and_true]
  omega

@[simp] theorem inside_load32 {off : Nat} : (load32 off).Inside n m ↔ off + 3 < n := by
  simp only [load32, inside_bind, inside_load8, inside_pure, and_true]
  omega

theorem inside_load {off len : Nat} (h : off + len ≤ n) : (load off len).Inside n m := by
  induction len with
  | zero => exact inside_pure m []
  | succ len ih =>
      simp only [load, inside_bind, inside_load8, inside_pure, and_true]
      exact ⟨ih (by omega), by omega⟩

end Reading

end NetStack.Lib
