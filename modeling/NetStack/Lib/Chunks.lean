import Mathlib.Algebra.BigOperators.Group.List.Basic

/-!
# Chunks of a byte stream

A byte stream reaches its reader in chunks. `Contiguous` says that they follow one another
from a given position on, over any type of positions, so that positions may also wrap.
-/

namespace NetStack.Lib

/-- A stretch of a byte stream: the position of its first byte and its length. -/
structure Chunk (α : Type) where
  start : α
  length : α

variable {α : Type} [AddMonoid α]

/-- The length of all chunks together. -/
def totalLength (chunks : List (Chunk α)) : α := (chunks.map (·.length)).sum

/-- Each chunk starts where the one before it ends, the first one at `start`. -/
def Contiguous : α → List (Chunk α) → Prop
  | _, [] => True
  | start, c :: cs => c.start = start ∧ Contiguous (start + c.length) cs

@[simp] theorem totalLength_nil : totalLength ([] : List (Chunk α)) = 0 := rfl

@[simp] theorem totalLength_concat (chunks : List (Chunk α)) (c : Chunk α) :
    totalLength (chunks ++ [c]) = totalLength chunks + c.length := by
  simp [totalLength]

/-- A chunk continues a stream that ends where it starts. -/
theorem contiguous_concat {start : α} {chunks : List (Chunk α)} {c : Chunk α} :
    Contiguous start (chunks ++ [c]) ↔
      Contiguous start chunks ∧ c.start = start + totalLength chunks := by
  induction chunks generalizing start with
  | nil => simp [Contiguous]
  | cons d chunks ih =>
      simp only [List.cons_append, Contiguous, ih, totalLength, List.map_cons, List.sum_cons,
        add_assoc, and_assoc]

end NetStack.Lib
