import NetStack.Lib.Machine

/-!
# History variables

A machine with a history keeps, beside the state, what an observer writes down about each step
from the states before and after it. The history decides nothing: the runs are those of the
machine, and a condition on the states is met by a run with history exactly if the run itself
meets it.
-/

namespace NetStack.Lib

variable {σ α τ : Type}

/-- The machine beside a history that `note` extends at every step. -/
def withHistory (step : σ → α → Option σ) (note : σ → α → σ → τ → τ) (x : σ × τ) (a : α) :
    Option (σ × τ) :=
  (step x.1 a).map fun s' => (s', note x.1 a s' x.2)

variable {step : σ → α → Option σ} {note : σ → α → σ → τ → τ} {C : σ → α → Prop}

theorem withHistory_eq_some_iff {x y : σ × τ} {a : α} :
    withHistory step note x a = some y ↔
      step x.1 a = some y.1 ∧ y.2 = note x.1 a y.1 x.2 := by
  constructor
  · intro h
    obtain ⟨s', hs', rfl⟩ := Option.map_eq_some_iff.mp h
    exact ⟨hs', rfl⟩
  · rintro ⟨hs, hy⟩
    exact Option.map_eq_some_iff.mpr ⟨y.1, hs, by rw [← hy]⟩

/-- The states of a run with history are those of the run. -/
theorem run_withHistory (step : σ → α → Option σ) (note : σ → α → σ → τ → τ) (x : σ × τ)
    (as : List α) : (run (withHistory step note) x as).map Prod.fst = run step x.1 as := by
  induction as generalizing x with
  | nil => rfl
  | cons a as ih =>
      simp only [run_cons]
      cases hs : step x.1 a with
      | none => simp [withHistory, hs]
      | some s' => simpa [withHistory, hs] using ih (s', note x.1 a s' x.2)

theorem guarded_withHistory {x : σ × τ} {as : List α} :
    Guarded (withHistory step note) (fun x a => C x.1 a) x as ↔ Guarded step C x.1 as := by
  induction as generalizing x with
  | nil => exact Iff.rfl
  | cons a as ih =>
      simp only [guarded_cons, withHistory_eq_some_iff]
      refine and_congr_right fun _ => ⟨fun h s' hs' => ?_, fun h y hy => ?_⟩
      · exact (ih (x := (s', note x.1 a s' x.2))).mp (h _ ⟨hs', rfl⟩)
      · exact (ih (x := y)).mpr (h y.1 hy.1)

/-- The invariant rule for states with histories: a step from one with the property, taken under
    the condition, keeps it. -/
theorem history_invariant {P : σ → τ → Prop} {x y : σ × τ} {as : List α}
    (hrun : run (withHistory step note) x as = some y) (hg : Guarded step C x.1 as)
    (hx : P x.1 x.2)
    (hstep : ∀ s e a s', P s e → C s a → step s a = some s' → P s' (note s a s' e)) :
    P y.1 y.2 := by
  refine run_invariant (P := fun x => P x.1 x.2) ?_ hx (guarded_withHistory.mpr hg) hrun
  intro x a y hx hc hy
  obtain ⟨hs, hnote⟩ := withHistory_eq_some_iff.mp hy
  rw [hnote]
  exact hstep x.1 x.2 a y.1 hx hc hs

end NetStack.Lib
