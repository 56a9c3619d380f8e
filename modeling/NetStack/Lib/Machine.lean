import Mathlib.Data.List.Basic

/-!
# Partial deterministic machines

A machine is a partial step function `step : σ → α → Option σ`: `α` is the choice the
environment makes (which task runs, what arrives, which call fails), `none` means that the
choice is not possible in that state or that the program's behaviour is undefined there.
A `run` feeds a list of choices to the machine. `Guarded C` says that every step of the run
is taken under the condition `C`, so that an invariant may rely on `C` and nothing else.
-/

namespace NetStack.Lib

variable {σ α : Type}

/-- The state after the choices `as`, `none` as soon as one of them is not possible. -/
def run (step : σ → α → Option σ) : σ → List α → Option σ
  | s, [] => some s
  | s, a :: as =>
      match step s a with
      | none => none
      | some s' => run step s' as

/-- Every step of the run of `as` from `s` is taken in a state and with a choice that meet
    the condition `C`. -/
def Guarded (step : σ → α → Option σ) (C : σ → α → Prop) : σ → List α → Prop
  | _, [] => True
  | s, a :: as =>
      C s a ∧
        match step s a with
        | none => True
        | some s' => Guarded step C s' as

/-- A state that some run of the machine reaches from `init`. -/
def Reachable (step : σ → α → Option σ) (init s : σ) : Prop :=
  ∃ as, run step init as = some s

instance Guarded.decidable (step : σ → α → Option σ) (C : σ → α → Prop)
    [∀ s a, Decidable (C s a)] : ∀ s as, Decidable (Guarded step C s as)
  | _, [] => isTrue trivial
  | s, a :: as => by
      unfold Guarded
      exact
        match step s a with
        | none => inferInstanceAs (Decidable (C s a ∧ True))
        | some s' =>
            have := Guarded.decidable step C s' as
            inferInstanceAs (Decidable (C s a ∧ Guarded step C s' as))

variable {step : σ → α → Option σ} {C : σ → α → Prop}

@[simp] theorem run_nil (s : σ) : run step s [] = some s := rfl

theorem run_cons (s : σ) (a : α) (as : List α) :
    run step s (a :: as) = (step s a).bind fun s' => run step s' as := by
  cases h : step s a <;> simp [run, h]

theorem guarded_cons {s : σ} {a : α} {as : List α} :
    Guarded step C s (a :: as) ↔ C s a ∧ ∀ s', step s a = some s' → Guarded step C s' as := by
  cases h : step s a <;> simp [Guarded, h]

theorem run_append (s : σ) (as bs : List α) :
    run step s (as ++ bs) = (run step s as).bind fun s' => run step s' bs := by
  induction as generalizing s with
  | nil => rfl
  | cons a as ih =>
      simp only [List.cons_append, run_cons]
      cases step s a with
      | none => rfl
      | some s' => simpa using ih s'

/-- The state between two parts of a run. -/
theorem run_split {s t : σ} {as bs : List α} (h : run step s (as ++ bs) = some t) :
    ∃ u, run step s as = some u ∧ run step u bs = some t := by
  rw [run_append] at h
  exact Option.bind_eq_some_iff.mp h

/-- The last step of a run that ends with the choice `a`. -/
theorem run_snoc {s u : σ} {as : List α} {a : α} (h : run step s (as ++ [a]) = some u) :
    ∃ t, run step s as = some t ∧ step t a = some u := by
  obtain ⟨t, ht, hlast⟩ := run_split h
  refine ⟨t, ht, ?_⟩
  simpa [run_cons] using hlast

/-- What an evaluation of a run finds out about the state it reaches. -/
theorem run_any {p : σ → Bool} {s : σ} {as : List α} (h : (run step s as).any p = true) :
    ∃ t, run step s as = some t ∧ p t = true := by
  cases hrun : run step s as with
  | none => simp [hrun] at h
  | some t => exact ⟨t, rfl, by simpa [hrun] using h⟩

theorem guarded_append {s t : σ} {as bs : List α} (hrun : run step s as = some t) :
    Guarded step C s (as ++ bs) ↔ Guarded step C s as ∧ Guarded step C t bs := by
  induction as generalizing s with
  | nil =>
      obtain rfl := Option.some.inj hrun
      simp [Guarded]
  | cons a as ih =>
      rw [run_cons] at hrun
      obtain ⟨s', hs', hrun⟩ := Option.bind_eq_some_iff.mp hrun
      simp only [List.cons_append, guarded_cons, hs', Option.some.injEq, forall_eq', ih hrun]
      exact and_assoc.symm

/-- The condition under which the last step of a guarded run is taken. -/
theorem guarded_snoc {s t : σ} {as : List α} {a : α} (hrun : run step s as = some t)
    (hg : Guarded step C s (as ++ [a])) : Guarded step C s as ∧ C t a := by
  rw [guarded_append hrun] at hg
  exact ⟨hg.1, (guarded_cons.mp hg.2).1⟩

theorem Guarded.mono {D : σ → α → Prop} (himp : ∀ s a, C s a → D s a) {s : σ} {as : List α}
    (hg : Guarded step C s as) : Guarded step D s as := by
  induction as generalizing s with
  | nil => trivial
  | cons a as ih =>
      rw [guarded_cons] at hg ⊢
      exact ⟨himp s a hg.1, fun s' hs' => ih (hg.2 s' hs')⟩

/-- The unconditional guard holds of every run. -/
theorem guarded_true (s : σ) (as : List α) : Guarded step (fun _ _ => True) s as := by
  induction as generalizing s with
  | nil => trivial
  | cons a as ih => exact guarded_cons.mpr ⟨trivial, fun s' _ => ih s'⟩

/-- A condition on the choices alone. -/
theorem guarded_of_forall {P : α → Prop} (s : σ) {as : List α} (h : ∀ a ∈ as, P a) :
    Guarded step (fun _ a => P a) s as := by
  induction as generalizing s with
  | nil => trivial
  | cons a as ih =>
      exact guarded_cons.mpr ⟨h a List.mem_cons_self,
        fun s' _ => ih s' fun b hb => h b (List.mem_cons_of_mem a hb)⟩

/-- The invariant rule: what one step preserves under the condition, every run whose steps
    all meet the condition preserves. -/
theorem run_invariant {P : σ → Prop}
    (hstep : ∀ s a s', P s → C s a → step s a = some s' → P s')
    {s t : σ} {as : List α} (hs : P s) (hg : Guarded step C s as)
    (hrun : run step s as = some t) : P t := by
  induction as generalizing s with
  | nil =>
      obtain rfl := Option.some.inj hrun
      exact hs
  | cons a as ih =>
      rw [run_cons] at hrun
      obtain ⟨s', hs', hrun⟩ := Option.bind_eq_some_iff.mp hrun
      obtain ⟨hc, hg⟩ := guarded_cons.mp hg
      exact ih (hstep s a s' hs hc hs') (hg s' hs') hrun

/-- The invariant rule for a step that relies on the run before it. -/
theorem run_invariant_of_run {P : σ → Prop} {init : σ}
    (hstep : ∀ as s a s', run step init as = some s → Guarded step C init as → P s → C s a →
      step s a = some s' → P s')
    {t : σ} {as : List α} (hinit : P init) (hg : Guarded step C init as)
    (hrun : run step init as = some t) : P t := by
  have hinvariant : ∃ bs, run step init bs = some t ∧ Guarded step C init bs ∧ P t := by
    refine run_invariant (P := fun s => ∃ bs, run step init bs = some s ∧
      Guarded step C init bs ∧ P s) ?_ ⟨[], rfl, trivial, hinit⟩ hg hrun
    rintro s a s' ⟨bs, hbs, hgbs, hs⟩ hc hs'
    refine ⟨bs ++ [a], by simp [run_append, hbs, run_cons, hs'], ?_, hstep bs s a s' hbs hgbs hs hc hs'⟩
    exact (guarded_append hbs).mpr ⟨hgbs, guarded_cons.mpr ⟨hc, fun _ _ => trivial⟩⟩
  exact hinvariant.choose_spec.2.2

/-- When a step reaches a state with the property exactly if it starts from one and meets the
    condition, a run reaches one exactly if all its steps meet the condition. The law for the
    steps may rely on an invariant. -/
theorem run_iff_guarded_of_invariant {I P : σ → Prop}
    (hinv : ∀ s a s', I s → step s a = some s' → I s')
    (hstep : ∀ s a s', I s → step s a = some s' → (P s' ↔ P s ∧ C s a))
    {s t : σ} {as : List α} (hI : I s) (hs : P s) (hrun : run step s as = some t) :
    P t ↔ Guarded step C s as := by
  have hback : ∀ (as : List α) (s : σ), I s → run step s as = some t → P t → P s := by
    intro as
    induction as with
    | nil => exact fun s _ hrun ht => Option.some.inj hrun ▸ ht
    | cons a as ih =>
        intro s hI hrun ht
        rw [run_cons] at hrun
        obtain ⟨s', hs', hrun⟩ := Option.bind_eq_some_iff.mp hrun
        exact ((hstep s a s' hI hs').mp (ih s' (hinv s a s' hI hs') hrun ht)).1
  induction as generalizing s with
  | nil =>
      obtain rfl := Option.some.inj hrun
      simp [Guarded, hs]
  | cons a as ih =>
      rw [run_cons] at hrun
      obtain ⟨s', hs', hrun⟩ := Option.bind_eq_some_iff.mp hrun
      have hI' := hinv s a s' hI hs'
      rw [guarded_cons]
      constructor
      · intro ht
        have hP' := hback as s' hI' hrun ht
        refine ⟨((hstep s a s' hI hs').mp hP').2, ?_⟩
        intro u hu
        obtain rfl := Option.some.inj (hs'.symm.trans hu)
        exact (ih hI' hP' hrun).mp ht
      · rintro ⟨hc, hg⟩
        exact (ih hI' ((hstep s a s' hI hs').mpr ⟨hs, hc⟩) hrun).mpr (hg s' hs')

/-- The rule for a law of the steps that needs no invariant. -/
theorem run_iff_guarded {P : σ → Prop}
    (hstep : ∀ s a s', step s a = some s' → (P s' ↔ P s ∧ C s a))
    {s t : σ} {as : List α} (hs : P s) (hrun : run step s as = some t) :
    P t ↔ Guarded step C s as :=
  run_iff_guarded_of_invariant (I := fun _ => True) (fun _ _ _ _ _ => trivial)
    (fun s a s' _ hs' => hstep s a s' hs') trivial hs hrun

/-- An invariant of every step holds in every reachable state. -/
theorem Reachable.invariant {P : σ → Prop} {init s : σ} (hreach : Reachable step init s)
    (hinit : P init) (hstep : ∀ s a s', P s → step s a = some s' → P s') : P s := by
  obtain ⟨as, hrun⟩ := hreach
  exact run_invariant (C := fun _ _ => True) (fun s a s' hs _ => hstep s a s' hs) hinit
    (guarded_true init as) hrun

/-! ### Responses -/

/-- The run of `as` from `s` passes through a state with the property. -/
def Visits (step : σ → α → Option σ) (Q : σ → Prop) (s : σ) (as : List α) : Prop :=
  ∃ bs u, bs <+: as ∧ run step s bs = some u ∧ Q u

section Responses
variable {Q : σ → Prop} {s s' t : σ} {a : α} {as bs : List α}

theorem Visits.here (h : Q s) (as : List α) : Visits step Q s as :=
  ⟨[], s, List.nil_prefix, rfl, h⟩

theorem Visits.cons (hs' : step s a = some s') (h : Visits step Q s' as) :
    Visits step Q s (a :: as) := by
  obtain ⟨bs, u, hbs, hu, hq⟩ := h
  exact ⟨a :: bs, u, List.cons_prefix_cons.mpr ⟨rfl, hbs⟩, by simp [run_cons, hs', hu], hq⟩

theorem Visits.append (h : Visits step Q s as) (bs : List α) : Visits step Q s (as ++ bs) := by
  obtain ⟨cs, u, hcs, hu, hq⟩ := h
  exact ⟨cs, u, hcs.trans (List.prefix_append as bs), hu, hq⟩

theorem Visits.after (hrun : run step s as = some t) (h : Visits step Q t bs) :
    Visits step Q s (as ++ bs) := by
  obtain ⟨cs, u, hcs, hu, hq⟩ := h
  exact ⟨as ++ cs, u, List.prefix_append_right_inj as |>.mpr hcs, by simp [run_append, hrun, hu], hq⟩

/-- The run goes on from the state that it passes through. -/
theorem Visits.split (h : Visits step Q s as) (hrun : run step s as = some t) :
    ∃ bs cs u, as = bs ++ cs ∧ run step s bs = some u ∧ Q u ∧ run step u cs = some t := by
  obtain ⟨bs, u, ⟨cs, rfl⟩, hu, hq⟩ := h
  obtain ⟨v, hv, hcs⟩ := run_split hrun
  obtain rfl := Option.some.inj (hu.symm.trans hv)
  exact ⟨bs, cs, u, rfl, hu, hq, hcs⟩

/-- The response rule: `R n` says that the response is at most `n` ticks away. When a step that is
    a tick brings it one tick nearer and no step puts it off, then a run either passes through the
    response or is nearer to it by all its ticks. -/
theorem visits_or_of_ticks (tick : α → Bool) {R : Nat → σ → Prop}
    (hstep : ∀ n s a s', R n s → C s a → step s a = some s' →
      Q s' ∨ R (if tick a then n - 1 else n) s')
    {n : Nat} (hs : R n s) (hg : Guarded step C s as) (hrun : run step s as = some t) :
    Visits step Q s as ∨ R (n - as.countP tick) t := by
  induction as generalizing s n with
  | nil =>
      obtain rfl := Option.some.inj hrun
      exact .inr hs
  | cons a as ih =>
      rw [run_cons] at hrun
      obtain ⟨s', hs', hrun⟩ := Option.bind_eq_some_iff.mp hrun
      obtain ⟨hc, hg⟩ := guarded_cons.mp hg
      rcases hstep n s a s' hs hc hs' with hq | hr
      · exact .inl (.cons hs' (.here hq as))
      · rcases ih hr (hg s' hs') hrun with hvisits | hr
        · exact .inl (hvisits.cons hs')
        · refine .inr ?_
          rw [List.countP_cons]
          split at hr
          case isTrue htick => rwa [if_pos htick, Nat.add_comm, Nat.sub_add_eq]
          case isFalse htick => rwa [if_neg htick]

/-- What lasts until the response comes. -/
theorem visits_or_of_lasting {R : σ → Prop}
    (hstep : ∀ s a s', R s → C s a → step s a = some s' → Q s' ∨ R s')
    (hs : R s) (hg : Guarded step C s as) (hrun : run step s as = some t) :
    Visits step Q s as ∨ R t :=
  visits_or_of_ticks (fun _ => false) (R := fun _ => R) (n := 0)
    (fun _ => hstep) hs hg hrun

end Responses

end NetStack.Lib
