import Mathlib.Data.List.Basic

/-!
# Bounded queues, queue sets and counting semaphores

The kernel objects a real-time operating system offers to its tasks, as values: a send to a
bounded queue either appends or fails, a queue set is the queue of the handles of its members
in the order of the posts, and a counting semaphore carries the proof that its count never
exceeds its maximum. Whether a task waits when an operation fails is the caller's business.
-/

namespace NetStack.Lib

/-- `xQueueSend` without waiting: appends the item, or fails when the queue is full. -/
def queueSend {α : Type} (capacity : Nat) (queue : List α) (item : α) : Option (List α) :=
  if queue.length < capacity then some (queue ++ [item]) else none

/-- The post of a member's handle to its queue set; a full set drops the handle. -/
def setPost {α : Type} (capacity : Nat) (set : List α) (handle : α) : List α :=
  if set.length < capacity then set ++ [handle] else set

theorem queueSend_eq_some_iff {α : Type} {capacity : Nat} {queue queue' : List α} {item : α} :
    queueSend capacity queue item = some queue' ↔
      queue.length < capacity ∧ queue' = queue ++ [item] := by
  unfold queueSend
  split
  case isTrue h => simp [h, eq_comm]
  case isFalse h => simp [h]

/-- A counting semaphore: `handle` is what tells it from every other one ever created. -/
structure CountingSemaphore (max : Nat) where
  handle : Nat
  count : Nat
  bounded : count ≤ max

namespace CountingSemaphore

variable {max : Nat}

/-- `xSemaphoreCreateCounting(max, max)`. -/
def create (max handle : Nat) : CountingSemaphore max := ⟨handle, max, Nat.le_refl max⟩

/-- `xSemaphoreTake` without waiting: fails when the count is zero. -/
def take (s : CountingSemaphore max) : Option (CountingSemaphore max) :=
  if 0 < s.count then
    some ⟨s.handle, s.count - 1, Nat.le_trans (Nat.sub_le s.count 1) s.bounded⟩
  else none

/-- `xSemaphoreGive`: a semaphore at its maximum stays as it is. -/
def give (s : CountingSemaphore max) : CountingSemaphore max :=
  if h : s.count < max then ⟨s.handle, s.count + 1, h⟩ else s

@[simp] theorem give_handle (s : CountingSemaphore max) : s.give.handle = s.handle := by
  unfold give
  split <;> rfl

theorem give_count (s : CountingSemaphore max) (h : s.count < max) :
    s.give.count = s.count + 1 := by
  simp [give, h]

theorem give_pos (s : CountingSemaphore max) (h : 0 < max) : 0 < s.give.count := by
  unfold give
  split
  · exact Nat.succ_pos s.count
  · omega

theorem take_eq_none_iff {s : CountingSemaphore max} : s.take = none ↔ s.count = 0 := by
  unfold take
  split <;> simp_all [Nat.pos_iff_ne_zero]

theorem take_some {s s' : CountingSemaphore max} (h : s.take = some s') :
    s'.handle = s.handle ∧ s'.count + 1 = s.count := by
  unfold take at h
  split at h
  · obtain rfl := Option.some.inj h
    exact ⟨rfl, by simp; omega⟩
  · cases h

/-- The semaphore after `n` takes, as far as there is something to take. -/
def takes (s : CountingSemaphore max) (n : Nat) : CountingSemaphore max :=
  ⟨s.handle, s.count - n, Nat.le_trans (Nat.sub_le s.count n) s.bounded⟩

@[simp] theorem takes_zero (s : CountingSemaphore max) : s.takes 0 = s := rfl

theorem takes_takes (s : CountingSemaphore max) (m n : Nat) :
    (s.takes m).takes n = s.takes (m + n) := by
  simp only [takes, Nat.sub_sub]

theorem take_eq_takes {s s' : CountingSemaphore max} (h : s.take = some s') : s' = s.takes 1 := by
  unfold take at h
  split at h
  · exact (Option.some.inj h).symm
  · cases h

/-- What was taken can be given back. -/
theorem take_give {s s' : CountingSemaphore max} (h : s.take = some s') : s'.give = s := by
  obtain ⟨hhandle, hcount⟩ := take_some h
  have hlt : s'.count < max := by have := s.bounded; omega
  cases s
  simp only [give, hlt, dite_true, mk.injEq]
  exact ⟨hhandle, hcount⟩

end CountingSemaphore

end NetStack.Lib
