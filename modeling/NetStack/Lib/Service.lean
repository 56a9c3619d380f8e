import NetStack.Lib.Machine
import NetStack.Lib.QueueSet

/-!
# Bounded service

A worker that takes the oldest handle out of its queue set and the oldest item out of the queue that
the handle names serves the items that have a handle in bounded time: what is put in later comes behind
and does not put them off. `Stock` is the set beside the contents of its members.
-/

namespace NetStack.Lib

/-- The handles in a queue set, and the items in each of its members. -/
@[ext]
structure Stock (ι β : Type) where
  handles : List ι
  items : ι → List β

namespace Stock

variable {ι β : Type} {s t u : Stock ι β} {h k : ι} {x : β} {m n j : ℕ} {handles : List ι}

/-- Handles and items have been put in behind the others. -/
structure Grows (s t : Stock ι β) : Prop where
  handles : s.handles <+: t.handles
  items : ∀ h, s.items h <+: t.items h

theorem Grows.refl (s : Stock ι β) : Grows s s := ⟨List.prefix_rfl, fun _ => List.prefix_rfl⟩

/-- A post to a set puts the handle in last, if at all. -/
theorem setPost_grows (capacity : ℕ) (handles : List ι) (h : ι) :
    handles <+: setPost capacity handles h := by
  unfold setPost
  split
  · exact List.prefix_append handles [h]
  · exact List.prefix_rfl

/-- The set with the numbers of items in its members. -/
def backlog (s : Stock ι β) : Backlog ι := ⟨s.handles, fun h => (s.items h).length⟩

variable [DecidableEq ι]

/-- What a selection takes out of the member `h`. -/
def takenFrom (h : ι) (s : Stock ι β) : List β :=
  if s.handles.head? = some h then (s.items h).head?.toList else []

/-- The oldest handle is taken out of the set, and the oldest item out of its queue. -/
def select (s : Stock ι β) : Stock ι β :=
  match s.handles with
  | [] => s
  | h :: handles => ⟨handles, Function.update s.items h (s.items h).tail⟩

theorem select_nil (hempty : s.handles = []) : s.select = s := by
  simp [select, hempty]

theorem select_cons (hs : s.handles = h :: handles) :
    s.select = ⟨handles, Function.update s.items h (s.items h).tail⟩ := by
  simp [select, hs]

theorem takenFrom_cons (hs : s.handles = h :: handles) :
    s.takenFrom h = (s.items h).head?.toList := by
  simp [takenFrom, hs]

theorem takenFrom_of_ne (hs : s.handles = k :: handles) (hk : h ≠ k) : s.takenFrom h = [] := by
  simp [takenFrom, hs, Ne.symm hk]

/-- An item is taken out for a handle. -/
theorem length_takenFrom_le (s : Stock ι β) (h : ι) :
    (s.takenFrom h).length + s.select.handles.count h ≤ s.handles.count h := by
  cases hs : s.handles with
  | nil => simp [takenFrom, select_nil hs, hs]
  | cons first handles =>
      rw [select_cons hs]
      by_cases hfirst : h = first
      · subst hfirst
        have hlength : (s.items h).head?.toList.length ≤ 1 := by
          cases (s.items h).head? <;> simp
        rw [takenFrom_cons hs, List.count_cons_self]
        dsimp only
        omega
      · rw [takenFrom_of_ne hs hfirst, List.count_cons_of_ne (Ne.symm hfirst), List.length_nil,
          Nat.zero_add]

/-- Of the next `n` selections, `m` come to the member `h`. -/
def Reaches (n : ℕ) (h : ι) (m : ℕ) (s : Stock ι β) : Prop := m ≤ (s.handles.take n).count h

theorem not_reaches_zero : ¬s.Reaches 0 h (m + 1) := by
  simp [Reaches]

theorem Reaches.grows (hm : s.Reaches n h m) (hgrows : Grows s t) : t.Reaches n h m := by
  obtain ⟨handles, hhandles⟩ := hgrows.handles
  rw [Reaches, ← hhandles, List.take_append, List.count_append]
  exact hm.trans (Nat.le_add_right _ _)

theorem Reaches.select_self (hs : s.handles = h :: handles) (hm : s.Reaches n h (m + 1)) :
    s.select.Reaches (n - 1) h m := by
  cases n with
  | zero => exact absurd hm not_reaches_zero
  | succ n =>
      rw [Reaches, hs, List.take_succ_cons, List.count_cons_self] at hm
      rw [select_cons hs]
      exact Nat.le_of_succ_le_succ hm

theorem Reaches.select_of_ne (hs : s.handles = k :: handles) (hk : h ≠ k) (hm : s.Reaches n h m) :
    s.select.Reaches (n - 1) h m := by
  cases n with
  | zero => exact hm.trans (by simp)
  | succ n =>
      rw [Reaches, hs, List.take_succ_cons, List.count_cons_of_ne (Ne.symm hk)] at hm
      rw [select_cons hs]
      exact hm

/-- Each selection brings nearer what it leaves behind. -/
theorem reaches_select (hj : (s.select.items h)[j]? = some x) :
    ∃ i, (s.items h)[i]? = some x ∧
      (s.Reaches n h (i + 1) → s.select.Reaches (n - 1) h (j + 1)) := by
  cases hs : s.handles with
  | nil =>
      rw [select_nil hs] at hj
      exact ⟨j, hj, fun hreaches => absurd hreaches (by simp [Reaches, hs])⟩
  | cons first handles =>
      by_cases hfirst : h = first
      · subst hfirst
        rw [select_cons hs] at hj
        exact ⟨j + 1, by simpa [List.getElem?_tail] using hj, Reaches.select_self hs⟩
      · rw [select_cons hs] at hj
        exact ⟨j, by simpa [hfirst] using hj, Reaches.select_of_ne hs hfirst⟩

/-- As many selections as there are handles come to a member once for each of its items, if the set is
    in sync. -/
theorem reaches_of_inSync (hsync : s.backlog.InSync) (hn : s.handles.length ≤ n)
    (hm : m ≤ (s.items h).length) : s.Reaches n h m := by
  have hcount : s.handles.count h = (s.items h).length := hsync h
  rw [Reaches, List.take_of_length_le hn, hcount]
  exact hm

end Stock

variable {σ α ι β : Type} [DecidableEq ι]

/-- The items that the worker takes out of the member `h` in the run of `as`, in order. -/
def served (step : σ → α → Option σ) (worker : α → Bool) (stock : σ → Stock ι β) (h : ι) :
    σ → List α → List β
  | _, [] => []
  | s, a :: as =>
      (if worker a then (stock s).takenFrom h else []) ++
        match step s a with
        | none => []
        | some s' => served step worker stock h s' as

/-- In every run with as many steps of the worker as there are handles, all items that wait are taken
    out, in order. -/
def ServesAll (step : σ → α → Option σ) (worker : α → Bool) (stock : σ → Stock ι β) (s : σ) : Prop :=
  ∀ h as t, run step s as = some t → (stock s).handles.length ≤ as.countP worker →
    (stock s).items h <+: served step worker stock h s as

/-- The steps of the worker are the selections, and no other step takes anything out. -/
def IsService (step : σ → α → Option σ) (worker : α → Bool) (stock : σ → Stock ι β) : Prop :=
  ∀ s a s', step s a = some s' →
    Stock.Grows (if worker a then (stock s).select else stock s) (stock s')

section Service
variable {step : σ → α → Option σ} {worker : α → Bool} {stock : σ → Stock ι β} {h : ι} {s s' t : σ}
  {a : α} {as : List α}

theorem served_cons (hs' : step s a = some s') :
    served step worker stock h s (a :: as) =
      (if worker a then (stock s).takenFrom h else []) ++ served step worker stock h s' as := by
  simp [served, hs']

/-- Where `n` selections come to a member `m` times, `n` steps of the worker take out its first `m`
    items, whatever is put in meanwhile. -/
theorem take_prefix_served (hservice : IsService step worker stock) {m n : ℕ}
    (hreaches : (stock s).Reaches n h m) (hrun : run step s as = some t)
    (hn : n ≤ as.countP worker) :
    ((stock s).items h).take m <+: served step worker stock h s as := by
  induction as generalizing s m n with
  | nil =>
      obtain rfl := Nat.le_zero.mp hn
      have hm : m = 0 := by simpa [Stock.Reaches] using hreaches
      subst hm
      exact List.nil_prefix
  | cons a as ih =>
      rw [run_cons] at hrun
      obtain ⟨s', hs', hrun⟩ := Option.bind_eq_some_iff.mp hrun
      have hgrows := hservice s a s' hs'
      rw [served_cons hs']
      cases hworker : worker a with
      | false =>
          rw [hworker, if_neg Bool.false_ne_true] at hgrows
          rw [List.countP_cons, hworker] at hn
          have hrest := ih (hreaches.grows hgrows) hrun hn
          exact ((hgrows.items h).take m).trans hrest
      | true =>
          rw [hworker, if_pos rfl] at hgrows
          rw [List.countP_cons, hworker, if_pos rfl] at hn
          rw [if_pos rfl]
          have hrest : ∀ {m}, (stock s).select.Reaches (n - 1) h m →
              ((stock s).select.items h).take m <+: served step worker stock h s' as := fun hm =>
            ((hgrows.items h).take _).trans (ih (hm.grows hgrows) hrun (Nat.sub_le_of_le_add hn))
          cases hs : (stock s).handles with
          | nil =>
              have hm : m = 0 := by simpa [Stock.Reaches, hs] using hreaches
              subst hm
              exact List.nil_prefix
          | cons first handles =>
              by_cases hfirst : h = first
              · subst hfirst
                rw [Stock.takenFrom_cons hs]
                cases m with
                | zero => exact List.nil_prefix
                | succ m =>
                    have hrest := hrest (hreaches.select_self hs)
                    rw [Stock.select_cons hs] at hrest
                    cases hitems : (stock s).items h with
                    | nil => exact List.nil_prefix
                    | cons x items =>
                        rw [hitems] at hrest
                        simpa using hrest
              · rw [Stock.takenFrom_of_ne hs hfirst, List.nil_append]
                have hrest := hrest (hreaches.select_of_ne hs hfirst)
                rw [Stock.select_cons hs] at hrest
                simpa [hfirst] using hrest

/-- A worker whose set is in sync serves all items in bounded time. -/
theorem servesAll_of_inSync (hservice : IsService step worker stock)
    (hsync : (stock s).backlog.InSync) : ServesAll step worker stock s := by
  intro h as t hrun hticks
  have hreaches := Stock.reaches_of_inSync (h := h) hsync hticks le_rfl
  simpa using take_prefix_served hservice hreaches hrun le_rfl

/-! ### The worker on its own -/

variable {w : α}

/-- On its own the worker takes up one item for each handle at most. -/
theorem length_served_le (hselects : ∀ s s', step s w = some s' → stock s' = (stock s).select)
    (n : ℕ) : (served step worker stock h s (List.replicate n w)).length ≤
      (stock s).handles.count h := by
  induction n generalizing s with
  | zero => exact Nat.zero_le _
  | succ n ih =>
      have htaken : (if worker w then (stock s).takenFrom h else []).length ≤
          ((stock s).takenFrom h).length := by
        split
        · exact le_rfl
        · exact Nat.zero_le _
      have hbalance := (stock s).length_takenFrom_le h
      rw [List.replicate_succ]
      cases hs' : step s w with
      | none =>
          simp only [served, hs', List.append_nil]
          omega
      | some s' =>
          have hrest := ih (s := s')
          rw [hselects s s' hs'] at hrest
          rw [served_cons hs', List.length_append]
          omega

/-- The worker can go on for as long as there are handles. -/
theorem exists_run_replicate (hselects : ∀ s s', step s w = some s' → stock s' = (stock s).select)
    (hready : ∀ s, (stock s).handles ≠ [] → (step s w).isSome = true) {n : ℕ}
    (hn : n ≤ (stock s).handles.length) : ∃ t, run step s (List.replicate n w) = some t := by
  induction n generalizing s with
  | zero => exact ⟨s, rfl⟩
  | succ n ih =>
      cases hs : (stock s).handles with
      | nil => simp [hs] at hn
      | cons first handles =>
          obtain ⟨s', hs'⟩ := Option.isSome_iff_exists.mp (hready s (by simp [hs]))
          have hn' : n ≤ (stock s').handles.length := by
            rw [hselects s s' hs', Stock.select_cons hs]
            rw [hs] at hn
            exact Nat.le_of_succ_le_succ hn
          obtain ⟨t, ht⟩ := ih hn'
          exact ⟨t, by rw [List.replicate_succ, run_cons, hs']; exact ht⟩

/-- A worker that is never held up serves all items in bounded time exactly if its set is in sync: on
    its own it does not come to an item without a handle. -/
theorem servesAll_iff_inSync (hservice : IsService step worker stock) (hw : worker w = true)
    (hselects : ∀ s s', step s w = some s' → stock s' = (stock s).select)
    (hready : ∀ s, (stock s).handles ≠ [] → (step s w).isSome = true)
    (hcovered : (stock s).backlog.Covered) :
    ServesAll step worker stock s ↔ (stock s).backlog.InSync := by
  refine ⟨fun hserves h => ?_, servesAll_of_inSync hservice⟩
  obtain ⟨t, ht⟩ := exists_run_replicate hselects hready le_rfl (s := s)
  have hticks : (stock s).handles.length ≤
      (List.replicate (stock s).handles.length w).countP worker := by
    simp [List.countP_replicate, hw]
  have hlength := (hserves h _ t ht hticks).length_le
  exact le_antisymm (hcovered h) (hlength.trans (length_served_le hselects _))

end Service

end NetStack.Lib
