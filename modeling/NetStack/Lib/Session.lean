import Mathlib.Data.List.Basic

/-!
# Sessions

A session is a sequence of marks: one that opens it, any number that it carries, and at most
one that closes it, in this order. `phaseOf` reads such a sequence from the left, and the
rules say what appending a mark and leaving one out do to its phase.
-/

namespace NetStack.Lib

/-- What an item of a session does to it. -/
inductive Mark where
  | opens
  | carries
  | closes
  deriving DecidableEq, Repr

/-- How far a session has got. -/
inductive Phase where
  | fresh
  | opened
  | closed
  | broken
  deriving DecidableEq, Repr

/-- The phase after one more mark. -/
def Phase.next : Phase → Mark → Phase
  | .fresh, .opens => .opened
  | .opened, .carries => .opened
  | .opened, .closes => .closed
  | _, _ => .broken

/-- The phase after all marks. -/
def phaseOf (marks : List Mark) : Phase := marks.foldl Phase.next .fresh

/-- A session that is empty, open or closed. -/
def Session (marks : List Mark) : Prop :=
  marks = [] ∨ ∃ items closing, marks = .opens :: (items ++ closing) ∧
    (∀ m ∈ items, m = .carries) ∧ (closing = [] ∨ closing = [.closes])

@[simp] theorem phaseOf_nil : phaseOf [] = .fresh := rfl

theorem phaseOf_append (u v : List Mark) : phaseOf (u ++ v) = v.foldl Phase.next (phaseOf u) := by
  simp [phaseOf, List.foldl_append]

@[simp] theorem phaseOf_concat (u : List Mark) (m : Mark) :
    phaseOf (u ++ [m]) = (phaseOf u).next m := by
  simp [phaseOf_append]

theorem Phase.next_broken (m : Mark) : Phase.broken.next m = .broken := by cases m <;> rfl

theorem Phase.next_ne_fresh (p : Phase) (m : Mark) : p.next m ≠ .fresh := by
  cases p <;> cases m <;> simp [Phase.next]

theorem foldl_broken (v : List Mark) : v.foldl Phase.next .broken = .broken := by
  induction v with
  | nil => rfl
  | cons m v ih => rw [List.foldl_cons, Phase.next_broken, ih]

/-- Nothing may follow a closed session. -/
theorem eq_nil_of_closed {v : List Mark} (h : v.foldl Phase.next .closed ≠ .broken) : v = [] := by
  cases v with
  | nil => rfl
  | cons m v =>
      rw [List.foldl_cons, show Phase.closed.next m = .broken by cases m <;> rfl] at h
      exact absurd (foldl_broken v) h

/-- What is read of a session is a session. -/
theorem phaseOf_prefix {u v : List Mark} (h : phaseOf (u ++ v) ≠ .broken) :
    phaseOf u ≠ .broken := by
  intro hbroken
  rw [phaseOf_append, hbroken] at h
  exact h (foldl_broken v)

theorem phaseOf_eq_fresh_iff {marks : List Mark} : phaseOf marks = .fresh ↔ marks = [] := by
  refine ⟨fun h => ?_, fun h => h ▸ rfl⟩
  rcases List.eq_nil_or_concat marks with rfl | ⟨u, m, rfl⟩
  · rfl
  · rw [List.concat_eq_append, phaseOf_concat] at h
    exact absurd h (Phase.next_ne_fresh _ _)

/-- A session without one of its marks, which is not the opening one, is in the same phase, or
    it was closed by that mark. -/
theorem phaseOf_remove {u v : List Mark} {m : Mark} (hm : m ≠ .opens)
    (h : phaseOf (u ++ m :: v) ≠ .broken) :
    phaseOf (u ++ v) = phaseOf (u ++ m :: v) ∨
      phaseOf (u ++ v) = .opened ∧ phaseOf (u ++ m :: v) = .closed := by
  rw [phaseOf_append, List.foldl_cons] at h
  rw [phaseOf_append, phaseOf_append, List.foldl_cons]
  have hopened : phaseOf u = .opened := by
    cases hu : phaseOf u <;> cases m <;> simp_all [Phase.next, foldl_broken]
  rw [hopened] at h ⊢
  cases m with
  | opens => exact absurd rfl hm
  | carries => exact .inl rfl
  | closes =>
      obtain rfl := eq_nil_of_closed h
      exact .inr ⟨rfl, rfl⟩

private theorem split_of_opened {v : List Mark} (h : v.foldl Phase.next .opened ≠ .broken) :
    ∃ items closing, v = items ++ closing ∧ (∀ m ∈ items, m = .carries) ∧
      (closing = [] ∨ closing = [.closes]) := by
  induction v with
  | nil => exact ⟨[], [], rfl, by simp, .inl rfl⟩
  | cons m v ih =>
      cases m with
      | opens => exact absurd (foldl_broken v) h
      | carries =>
          obtain ⟨items, closing, rfl, hitems, hclosing⟩ := ih h
          exact ⟨.carries :: items, closing, rfl, by simpa using hitems, hclosing⟩
      | closes =>
          obtain rfl := eq_nil_of_closed h
          exact ⟨[], [.closes], rfl, by simp, .inr rfl⟩

private theorem foldl_carries {items : List Mark} (h : ∀ m ∈ items, m = .carries) :
    items.foldl Phase.next .opened = .opened := by
  induction items with
  | nil => rfl
  | cons m items ih =>
      obtain rfl := h m List.mem_cons_self
      exact ih fun m hm => h m (List.mem_cons_of_mem _ hm)

/-- The sessions are the sequences that do not break. -/
theorem session_iff {marks : List Mark} : Session marks ↔ phaseOf marks ≠ .broken := by
  constructor
  · rintro (rfl | ⟨items, closing, rfl, hitems, hclosing⟩)
    · simp
    · rw [phaseOf, List.foldl_cons, List.foldl_append, Phase.next, foldl_carries hitems]
      rcases hclosing with rfl | rfl <;> simp [Phase.next]
  · intro h
    cases marks with
    | nil => exact .inl rfl
    | cons m v =>
        cases m with
        | opens =>
            obtain ⟨items, closing, rfl, hitems, hclosing⟩ := split_of_opened h
            exact .inr ⟨items, closing, rfl, hitems, hclosing⟩
        | carries | closes => exact absurd (foldl_broken v) h

end NetStack.Lib
