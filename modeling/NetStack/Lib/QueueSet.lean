import NetStack.Lib.Rtos
import Mathlib.Algebra.BigOperators.Group.Finset.Basic
import Mathlib.Algebra.Order.BigOperators.Group.Finset
import Mathlib.Logic.Function.Iterate

/-!
# Queue sets and their members

A worker that serves several queues waits on their queue set: it takes the oldest handle out of
the set and one item out of the queue that the handle names. `Backlog` is the set beside the
numbers of items that wait in its members. The two are in sync as long as no handle is dropped,
and none is dropped while the set has room for all items.
-/

namespace NetStack.Lib

/-- The handles in a queue set, and how many items wait in each of its members. -/
@[ext]
structure Backlog (ι : Type) where
  handles : List ι
  waiting : ι → Nat

namespace Backlog

variable {ι : Type} [DecidableEq ι] {capacity : Nat} {b b' b'' : Backlog ι} {h k : ι}

/-- An item is put into the member `h`, and its handle into the set. -/
def post (capacity : Nat) (h : ι) (b : Backlog ι) : Backlog ι :=
  ⟨setPost capacity b.handles h, Function.update b.waiting h (b.waiting h + 1)⟩

/-- The oldest handle is taken out of the set, and an item out of its queue. -/
def select (b : Backlog ι) : Backlog ι :=
  match b.handles with
  | [] => b
  | h :: handles => ⟨handles, Function.update b.waiting h (b.waiting h - 1)⟩

/-- The set holds a handle for each item that waits, and no other. -/
def InSync (b : Backlog ι) : Prop := ∀ h, b.handles.count h = b.waiting h

/-- Behind every handle in the set there is an item. -/
def Covered (b : Backlog ι) : Prop := ∀ h, b.handles.count h ≤ b.waiting h

theorem InSync.covered (hb : b.InSync) : b.Covered := fun h => (hb h).le

/-- The set of a backlog in sync is as long as its members together. -/
theorem InSync.length [Fintype ι] (hb : b.InSync) : b.handles.length = ∑ h, b.waiting h := by
  have hcount : ∑ h, b.handles.count h = b.handles.length := by
    simpa using Multiset.sum_count_eq_card fun h (_ : h ∈ (b.handles : Multiset ι)) =>
      Finset.mem_univ h
  rw [← hcount]
  exact Finset.sum_congr rfl fun h _ => hb h

/-! ### Posts -/

@[simp] theorem waiting_post_self : (b.post capacity h).waiting h = b.waiting h + 1 :=
  Function.update_self h _ _

theorem waiting_post_of_ne (hk : k ≠ h) : (b.post capacity h).waiting k = b.waiting k :=
  Function.update_of_ne hk _ _

theorem waiting_le_post (k : ι) : b.waiting k ≤ (b.post capacity h).waiting k := by
  by_cases hk : k = h
  · subst hk
    simp
  · exact (waiting_post_of_ne hk).ge

theorem count_post_of_room (hroom : b.handles.length < capacity) (k : ι) :
    (b.post capacity h).handles.count k = b.handles.count k + if k = h then 1 else 0 := by
  by_cases hk : k = h
  · subst hk
    simp [post, setPost, hroom]
  · simp [post, setPost, hroom, hk, Ne.symm hk]

theorem handles_post_of_full (hfull : ¬ b.handles.length < capacity) :
    (b.post capacity h).handles = b.handles := if_neg hfull

theorem Covered.post (hb : b.Covered) : (b.post capacity h).Covered := by
  intro k
  have hk := hb k
  by_cases hroom : b.handles.length < capacity
  · rw [count_post_of_room hroom]
    by_cases hkh : k = h
    · subst hkh
      simpa using hk
    · rw [waiting_post_of_ne hkh, if_neg hkh]
      exact hk
  · rw [handles_post_of_full hroom]
    exact hk.trans (waiting_le_post k)

/-- A post keeps the two in sync exactly if the set has room for the handle. -/
theorem inSync_post_iff (hb : b.Covered) :
    (b.post capacity h).InSync ↔ b.InSync ∧ b.handles.length < capacity := by
  by_cases hroom : b.handles.length < capacity
  · refine ⟨fun hpost => ⟨fun k => ?_, hroom⟩, fun ⟨hsync, _⟩ k => ?_⟩
    · have hk := hpost k
      rw [count_post_of_room hroom] at hk
      by_cases hkh : k = h
      · subst hkh
        simpa using hk
      · rwa [waiting_post_of_ne hkh, if_neg hkh] at hk
    · rw [count_post_of_room hroom, hsync k]
      by_cases hkh : k = h
      · subst hkh
        simp
      · rw [waiting_post_of_ne hkh, if_neg hkh, Nat.add_zero]
  · -- the item has come and its handle has not
    refine ⟨fun hpost => ?_, fun ⟨_, hroom'⟩ => absurd hroom' hroom⟩
    have hh := hpost h
    have hle := hb h
    rw [handles_post_of_full hroom, waiting_post_self] at hh
    omega

/-! ### Selections -/

theorem select_nil (hempty : b.handles = []) : b.select = b := by
  simp [select, hempty]

theorem select_cons {handles : List ι} (hb : b.handles = h :: handles) :
    b.select = ⟨handles, Function.update b.waiting h (b.waiting h - 1)⟩ := by
  simp [select, hb]

theorem waiting_select_le (k : ι) : b.select.waiting k ≤ b.waiting k := by
  cases hb : b.handles with
  | nil => rw [select_nil hb]
  | cons h handles =>
      rw [select_cons hb]
      by_cases hk : k = h
      · subst hk
        simp
      · simp [hk]

/-- Where every handle has its item, a selection takes one of both. -/
theorem select_balance (hb : b.Covered) (k : ι) :
    b.select.handles.count k + b.waiting k = b.handles.count k + b.select.waiting k := by
  cases hhandles : b.handles with
  | nil => rw [select_nil hhandles, hhandles]
  | cons h handles =>
      rw [select_cons hhandles]
      dsimp only
      by_cases hk : k = h
      · subst hk
        have hpos := hb k
        rw [hhandles, List.count_cons_self] at hpos
        rw [List.count_cons_self, Function.update_self]
        omega
      · rw [List.count_cons_of_ne (Ne.symm hk), Function.update_of_ne hk]

theorem Covered.select (hb : b.Covered) : b.select.Covered := by
  intro k
  have hk := hb k
  have hbalance := select_balance hb k
  omega

/-- A selection neither strands an item nor finds a stranded one. -/
theorem inSync_select_iff (hb : b.Covered) : b.select.InSync ↔ b.InSync := by
  apply forall_congr'
  intro k
  have hbalance := select_balance hb k
  omega

/-! ### Turns of the tasks -/

/-- Items have been put into the member `h`. -/
def Posted (capacity : Nat) (h : ι) (b b' : Backlog ι) : Prop :=
  ∃ n, b' = (post capacity h)^[n] b

theorem Posted.refl (b : Backlog ι) : Posted capacity h b b := ⟨0, rfl⟩

theorem Posted.single (b : Backlog ι) : Posted capacity h b (b.post capacity h) := ⟨1, rfl⟩

theorem Posted.trans (hb : Posted capacity h b b') (hb' : Posted capacity h b' b'') :
    Posted capacity h b b'' := by
  obtain ⟨m, rfl⟩ := hb
  obtain ⟨n, rfl⟩ := hb'
  exact ⟨n + m, (Function.iterate_add_apply _ n m b).symm⟩

theorem Posted.waiting_le (hb : Posted capacity h b b') (k : ι) : b.waiting k ≤ b'.waiting k := by
  obtain ⟨n, rfl⟩ := hb
  induction n generalizing b with
  | zero => exact le_rfl
  | succ n ih => exact (waiting_le_post k).trans ih

theorem Posted.waiting_of_ne (hb : Posted capacity h b b') (hk : k ≠ h) :
    b'.waiting k = b.waiting k := by
  obtain ⟨n, rfl⟩ := hb
  induction n generalizing b with
  | zero => rfl
  | succ n ih => exact ih.trans (waiting_post_of_ne hk)

/-- While the set has room for all items, posts keep it in sync. -/
theorem Posted.inSync [Fintype ι] (hb : Posted capacity h b b')
    (hfits : ∑ k, b'.waiting k ≤ capacity) (hsync : b.InSync) : b'.InSync := by
  obtain ⟨n, rfl⟩ := hb
  induction n generalizing b with
  | zero => exact hsync
  | succ n ih =>
      refine ih ((inSync_post_iff hsync.covered).mpr ⟨hsync, ?_⟩) hfits
      have hlater : ∀ k, (b.post capacity h).waiting k ≤
          ((post capacity h)^[n] (b.post capacity h)).waiting k :=
        Posted.waiting_le (h := h) ⟨n, rfl⟩
      calc b.handles.length = ∑ k, b.waiting k := hsync.length
        _ < ∑ k, (b.post capacity h).waiting k :=
            Finset.sum_lt_sum (fun k _ => waiting_le_post k)
              ⟨h, Finset.mem_univ h, by simp⟩
        _ ≤ ∑ k, ((post capacity h)^[n] (b.post capacity h)).waiting k :=
            Finset.sum_le_sum fun k _ => hlater k
        _ ≤ capacity := hfits

/-- What one turn of a task does: the worker may have selected a handle, and items have been put
    into one of the members. -/
def Turn (capacity : Nat) (h : ι) (b b' : Backlog ι) : Prop :=
  Posted capacity h b b' ∨ Posted capacity h b.select b'

theorem Turn.waiting_le_of_ne (hb : Turn capacity h b b') (hk : k ≠ h) :
    b'.waiting k ≤ b.waiting k := by
  rcases hb with hposted | hposted
  · exact (hposted.waiting_of_ne hk).le
  · exact (hposted.waiting_of_ne hk).le.trans (waiting_select_le k)

theorem Turn.inSync [Fintype ι] (hb : Turn capacity h b b')
    (hfits : ∑ k, b'.waiting k ≤ capacity) (hsync : b.InSync) : b'.InSync := by
  rcases hb with hposted | hposted
  · exact hposted.inSync hfits hsync
  · exact hposted.inSync hfits ((inSync_select_iff hsync.covered).mpr hsync)

/-- A turn after which no member is beyond its length keeps the set in sync, if the set has room
    for its members together. -/
theorem Turn.keeps [Fintype ι] {length : ι → Nat} (hroom : ∑ k, length k ≤ capacity)
    (hb : Turn capacity h b b') (hgrows : b'.waiting h ≤ max (b.waiting h) (length h))
    (hfits : ∀ k, b.waiting k ≤ length k) (hsync : b.InSync) :
    (∀ k, b'.waiting k ≤ length k) ∧ b'.InSync := by
  have hfits' : ∀ k, b'.waiting k ≤ length k := by
    intro k
    by_cases hk : k = h
    · subst hk
      exact hgrows.trans (max_le (hfits k) le_rfl)
    · exact (hb.waiting_le_of_ne hk).trans (hfits k)
  refine ⟨hfits', hb.inSync ?_ hsync⟩
  calc ∑ k, b'.waiting k ≤ ∑ k, length k := Finset.sum_le_sum fun k _ => hfits' k
    _ ≤ capacity := hroom

end Backlog

end NetStack.Lib
