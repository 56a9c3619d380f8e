import Mathlib.Algebra.BigOperators.Fin
import Mathlib.Data.List.FinRange

/-!
# Arrays of fixed length and the loops over them

A C array of length `n` is a function on `Fin n`. The three loops that programs run over
such arrays are the search for the first index with a property, the count of such indices
and the plain `for` loop over a state. Each comes with the rule its callers use: first
match, one changed element, loop invariant.
-/

namespace NetStack.Lib

variable {n : Nat}

/-- The first index at which `p` holds. -/
def firstIdx (p : Fin n → Bool) : Option (Fin n) := (List.finRange n).find? p

/-- The number of indices at which `p` holds. -/
def countIdx (p : Fin n → Bool) : Nat := (List.finRange n).countP p

/-- `for (i = 0; i < n; i++) body(i)` over a state. -/
def forIdx {σ : Type} (body : Fin n → σ → σ) (s : σ) : σ :=
  (List.finRange n).foldl (fun s i => body i s) s

theorem firstIdx_eq_none_iff {p : Fin n → Bool} : firstIdx p = none ↔ ∀ i, p i = false := by
  simp [firstIdx, List.find?_eq_none]

theorem firstIdx_some {p : Fin n → Bool} {i : Fin n} (h : firstIdx p = some i) : p i = true :=
  List.find?_some h

theorem firstIdx_lt {p : Fin n → Bool} {i j : Fin n} (h : firstIdx p = some i) (hj : j < i) :
    p j = false := by
  obtain ⟨-, as, bs, hsplit, hfirst⟩ := List.find?_eq_some_iff_append.mp h
  have hsorted : (List.finRange n).Pairwise (· < ·) := List.pairwise_lt_finRange n
  have hmem : j ∈ as ++ i :: bs := hsplit ▸ List.mem_finRange j
  rw [hsplit, List.pairwise_append, List.pairwise_cons] at hsorted
  rcases List.mem_append.mp hmem with hmem | hmem
  · simpa using hfirst j hmem
  · rcases List.mem_cons.mp hmem with rfl | hmem
    · exact absurd hj (lt_irrefl j)
    · exact absurd (hsorted.2.1.1 j hmem) (not_lt_of_gt hj)

/-- The search returns an index exactly when it is the first with the property. -/
theorem firstIdx_eq_some_iff {p : Fin n → Bool} {i : Fin n} :
    firstIdx p = some i ↔ p i = true ∧ ∀ j < i, p j = false := by
  refine ⟨fun h => ⟨firstIdx_some h, fun j hj => firstIdx_lt h hj⟩, ?_⟩
  rintro ⟨hi, hfirst⟩
  cases h : firstIdx p with
  | none => rw [firstIdx_eq_none_iff.mp h i] at hi; cases hi
  | some k =>
      rcases lt_trichotomy k i with hlt | rfl | hlt
      · exact absurd (firstIdx_some h) (by rw [hfirst k hlt]; simp)
      · rfl
      · rw [firstIdx_lt h hlt] at hi; cases hi

theorem firstIdx_congr {p q : Fin n → Bool} (h : ∀ i, p i = q i) : firstIdx p = firstIdx q := by
  rw [funext h]

/-- A search that finds nothing finds an index at which the property is made to hold. -/
theorem firstIdx_update_of_none {p : Fin n → Bool} (h : firstIdx p = none) (i : Fin n) :
    firstIdx (Function.update p i true) = some i := by
  rw [firstIdx_eq_some_iff]
  refine ⟨by simp, ?_⟩
  intro j hj
  rw [Function.update_of_ne (ne_of_lt hj)]
  exact firstIdx_eq_none_iff.mp h j

theorem countIdx_congr {p q : Fin n → Bool} (h : ∀ i, p i = q i) : countIdx p = countIdx q := by
  rw [funext h]

theorem countIdx_eq_zero_iff {p : Fin n → Bool} : countIdx p = 0 ↔ ∀ i, p i = false := by
  simp [countIdx, List.countP_eq_zero]

private theorem countP_update {p : Fin n → Bool} {i : Fin n} {b : Bool} {l : List (Fin n)}
    (hnodup : l.Nodup) :
    l.countP (Function.update p i b) + (if i ∈ l ∧ p i then 1 else 0) =
      l.countP p + (if i ∈ l ∧ b then 1 else 0) := by
  induction l with
  | nil => simp
  | cons a l ih =>
      obtain ⟨ha, hl⟩ := List.nodup_cons.mp hnodup
      have ih := ih hl
      by_cases hai : i = a
      · subst hai
        simp only [ha, false_and, if_false] at ih
        simp only [List.countP_cons, Function.update_self, List.mem_cons, true_or, true_and]
        omega
      · have hne : Function.update p i b a = p a := Function.update_of_ne (Ne.symm hai) b p
        simp only [List.countP_cons, hne, List.mem_cons, hai, false_or]
        omega

/-- Changing one element moves the count by that element's contribution. -/
theorem countIdx_update (p : Fin n → Bool) (i : Fin n) (b : Bool) :
    countIdx (Function.update p i b) + (if p i then 1 else 0) =
      countIdx p + (if b then 1 else 0) := by
  have h := countP_update (p := p) (i := i) (b := b) (List.nodup_finRange n)
  simpa [countIdx] using h

/-- Changing one element moves the sum by the difference. -/
theorem sum_update (f : Fin n → Nat) (i : Fin n) (b : Nat) :
    ∑ k, Function.update f i b k + f i = ∑ k, f k + b := by
  rw [Finset.sum_update_of_mem (Finset.mem_univ i),
    ← Finset.add_sum_erase Finset.univ f (Finset.mem_univ i), Finset.sdiff_singleton_eq_erase]
  omega

/-- No index lacks the property exactly when the count is full. -/
theorem firstIdx_not_eq_none_iff {p : Fin n → Bool} :
    firstIdx (fun i => !p i) = none ↔ countIdx p = n := by
  have hfull := List.countP_eq_length (p := p) (l := List.finRange n)
  rw [List.length_finRange] at hfull
  rw [firstIdx_eq_none_iff, countIdx, hfull]
  simp

/-- The loop invariant rule. -/
theorem forIdx_invariant {σ : Type} {body : Fin n → σ → σ} {P : σ → Prop}
    (hbody : ∀ i s, P s → P (body i s)) {s : σ} (hs : P s) : P (forIdx body s) := by
  unfold forIdx
  induction List.finRange n generalizing s with
  | nil => exact hs
  | cons i l ih => exact ih (hbody i s hs)

/-- What the body establishes at its own index and no turn destroys holds at every index after
    the loop. -/
theorem forIdx_forall {σ : Type} {body : Fin n → σ → σ} {P : σ → Prop} {Q : Fin n → σ → Prop}
    (hbody : ∀ i s, P s → P (body i s)) (hset : ∀ i s, P s → Q i (body i s))
    (hkeep : ∀ i j s, P s → Q i s → Q i (body j s)) {s : σ} (hs : P s) :
    ∀ i, Q i (forIdx body s) := by
  have hloop : ∀ (l : List (Fin n)) (s : σ), P s →
      ∀ i, i ∈ l ∨ Q i s → Q i (l.foldl (fun s i => body i s) s) := by
    intro l
    induction l with
    | nil => exact fun s _ i hi => hi.resolve_left List.not_mem_nil
    | cons j l ih =>
        intro s hs i hi
        apply ih (body j s) (hbody j s hs) i
        rcases hi with hi | hi
        · rcases List.mem_cons.mp hi with rfl | hi
          · exact .inr (hset i s hs)
          · exact .inl hi
        · exact .inr (hkeep i j s hs hi)
  exact fun i => hloop (List.finRange n) s hs i (.inl (List.mem_finRange i))

/-- The loop invariant rule for a relation between the loop's start and its current state. -/
theorem forIdx_related {σ : Type} {body : Fin n → σ → σ} {R : σ → σ → Prop}
    (hrefl : ∀ s, R s s) (htrans : ∀ {a b c}, R a b → R b c → R a c)
    (hbody : ∀ i s, R s (body i s)) (s : σ) : R s (forIdx body s) :=
  forIdx_invariant (P := R s) (fun i t ht => htrans ht (hbody i t)) (hrefl s)

/-- The turn at one index stands between two parts of the loop that do not contain it. -/
theorem forIdx_turn {σ : Type} {body : Fin n → σ → σ} {R : σ → σ → Prop} (i : Fin n)
    (hrefl : ∀ s, R s s) (htrans : ∀ {a b c}, R a b → R b c → R a c)
    (hother : ∀ j s, j ≠ i → R s (body j s)) (s : σ) :
    ∃ t, R s t ∧ R (body i t) (forIdx body s) := by
  have hpart : ∀ (l : List (Fin n)) (s : σ), i ∉ l → R s (l.foldl (fun s j => body j s) s) := by
    intro l
    induction l with
    | nil => exact fun s _ => hrefl s
    | cons j l ih =>
        intro s hi
        obtain ⟨hj, hl⟩ := not_or.mp (mt List.mem_cons.mpr hi)
        exact htrans (hother j s (Ne.symm hj)) (ih (body j s) hl)
  obtain ⟨as, bs, hsplit⟩ := List.append_of_mem (List.mem_finRange i)
  have hnodup : (as ++ i :: bs).Nodup := hsplit ▸ List.nodup_finRange n
  rw [List.nodup_append, List.nodup_cons] at hnodup
  obtain ⟨-, ⟨hbs, -⟩, hdisjoint⟩ := hnodup
  have has : i ∉ as := fun h => hdisjoint i h i List.mem_cons_self rfl
  refine ⟨as.foldl (fun s j => body j s) s, hpart as s has, ?_⟩
  rw [forIdx, hsplit, List.foldl_append, List.foldl_cons]
  exact hpart bs _ hbs

/-- A loop whose turns leave each other's tests alone may make all its tests beforehand. -/
theorem forIdx_test {σ : Type} {test : Fin n → σ → Bool} {act : Fin n → σ → σ}
    (hkeep : ∀ i j s, i ≠ j → test j (act i s) = test j s) (s : σ) :
    forIdx (fun i t => if test i t then act i t else t) s =
      forIdx (fun i t => if test i s then act i t else t) s := by
  have hloop : ∀ (l : List (Fin n)) (t : σ), l.Nodup → (∀ i ∈ l, test i t = test i s) →
      l.foldl (fun t i => if test i t then act i t else t) t =
        l.foldl (fun t i => if test i s then act i t else t) t := by
    intro l
    induction l with
    | nil => intros; rfl
    | cons i l ih =>
        intro t hnodup hsame
        obtain ⟨hi, hnodup⟩ := List.nodup_cons.mp hnodup
        rw [List.foldl_cons, List.foldl_cons, hsame i List.mem_cons_self]
        apply ih _ hnodup
        intro j hj
        have hj' := hsame j (List.mem_cons_of_mem i hj)
        split
        · rw [hkeep i j t fun hij => hi (hij ▸ hj), hj']
        · exact hj'
  exact hloop _ s (List.nodup_finRange n) fun _ _ => rfl

/-- Two loops whose turns keep a relation between their states. -/
theorem forIdx_simulates {σ τ : Type} {body : Fin n → σ → σ} {body' : Fin n → τ → τ}
    {R : σ → τ → Prop} (hbody : ∀ i s t, R s t → R (body i s) (body' i t)) {s : σ} {t : τ}
    (h : R s t) : R (forIdx body s) (forIdx body' t) := by
  unfold forIdx
  induction List.finRange n generalizing s t with
  | nil => exact h
  | cons i l ih => exact ih (hbody i s t h)

end NetStack.Lib
