import NetStack.Arp.Proofs.Pending

/-!
# Timeouts across the wrap of the tick counter

`alloc_pending` stores the wrapped sum of the tick and the timeout, and the sweep of `arp_task`
compares it with the tick by plain order. The sweep is right as long as the sum and the tick at the
sweep have both wrapped or both not: between the two an entry expires at once, or not at all until
the tick has caught up.
-/

namespace NetStack.Arp
open NetStack.Lib

/-- The entry is freed and the tasks that wait for it are woken. -/
structure Expires (s : ArpState) (i : PendingIdx) (s' : ArpState) : Prop where
  freed : (s'.arpPendingTasks i).waitingTasks = []
  woken : ∀ task ∈ (s.arpPendingTasks i).waitingTasks,
    s.notificationValue task < s'.notificationValue task

/-- The entry stays, and only the tasks of other entries are woken. -/
structure Stays (s : ArpState) (i : PendingIdx) (s' : ArpState) : Prop where
  entry : s'.arpPendingTasks i = s.arpPendingTasks i
  asleep : ∀ task, (∀ j ≠ i, task ∉ (s.arpPendingTasks j).waitingTasks) →
    s'.notificationValue task = s.notificationValue task

/-- `elapsed` ticks after the entry was made, the sweep expires it exactly if its time is up. -/
structure OnTime (s : ArpState) (i : PendingIdx) (elapsed : BitVec 32) (s' : ArpState) : Prop where
  expires : arpTimeoutTicks ≤ elapsed → Expires s i s'
  stays : elapsed < arpTimeoutTicks → Stays s i s'

/-- Both sums have wrapped, or neither has. -/
def SameWrap (now elapsed : BitVec 32) : Prop :=
  2 ^ 32 ≤ now.toNat + arpTimeoutTicks.toNat ↔ 2 ^ 32 ≤ now.toNat + elapsed.toNat

instance (now elapsed : BitVec 32) : Decidable (SameWrap now elapsed) :=
  inferInstanceAs (Decidable (_ ↔ _))

/-! ### What the sweep does to an entry -/

section Sweep
variable {s : ArpState} {i : PendingIdx} {now : BitVec 32}

/-- The entry is the same, and no notification has been taken back. -/
structure KeepsEntry (i : PendingIdx) (s t : ArpState) : Prop where
  entry : t.arpPendingTasks i = s.arpPendingTasks i
  value : ∀ task, s.notificationValue task ≤ t.notificationValue task

theorem KeepsEntry.refl (i : PendingIdx) (s : ArpState) : KeepsEntry i s s :=
  ⟨rfl, fun _ => Nat.le_refl _⟩

theorem KeepsEntry.trans {t u : ArpState} (h : KeepsEntry i s t) (h' : KeepsEntry i t u) :
    KeepsEntry i s u :=
  ⟨h'.entry.trans h.entry, fun task => Nat.le_trans (h.value task) (h'.value task)⟩

theorem pending_notifyPending (s : ArpState) (i : PendingIdx) :
    (notifyPending s i).arpPendingTasks = Function.update s.arpPendingTasks i
      { s.arpPendingTasks i with waitingTasks := [] } := by
  rw [notifyPending_eq]

theorem value_notifyPending (s : ArpState) (i : PendingIdx) (task : TaskHandle) :
    (notifyPending s i).notificationValue task =
      s.notificationValue task + (s.arpPendingTasks i).waitingTasks.count task := by
  rw [notifyPending_eq]

/-- A turn for another entry. -/
theorem keepsEntry_expirePending (now : BitVec 32) (j : PendingIdx) (s : ArpState) (hj : j ≠ i) :
    KeepsEntry i s (expirePending now j s) := by
  unfold expirePending
  split
  case isTrue =>
      constructor
      · rw [pending_notifyPending, Function.update_of_ne (Ne.symm hj)]
      · intro task
        rw [value_notifyPending]
        exact Nat.le_add_right _ _
  case isFalse => exact .refl i s

theorem expires_notifyPending (s : ArpState) (i : PendingIdx) :
    Expires s i (notifyPending s i) := by
  constructor
  · rw [pending_notifyPending, Function.update_self]
  · intro task htask
    rw [value_notifyPending]
    exact Nat.lt_add_of_pos_right (List.count_pos_iff.mpr htask)

/-- An entry whose tick has come by plain order expires. -/
theorem sweepPending_expires (h : (s.arpPendingTasks i).expirationTick ≤ now) :
    Expires s i (sweepPending s now) := by
  obtain ⟨t, hbefore, hafter⟩ : ∃ t, KeepsEntry i s t ∧
      KeepsEntry i (expirePending now i t) (sweepPending s now) :=
    forIdx_turn i (KeepsEntry.refl i) KeepsEntry.trans (keepsEntry_expirePending now) s
  have hdue : (t.arpPendingTasks i).expirationTick ≤ now := by
    rw [hbefore.entry]
    exact h
  have hturn : expirePending now i t = notifyPending t i := if_pos hdue
  rw [hturn] at hafter
  have hexpires := expires_notifyPending t i
  constructor
  · rw [hafter.entry]
    exact hexpires.freed
  · intro task htask
    rw [← hbefore.entry] at htask
    calc s.notificationValue task
        ≤ t.notificationValue task := hbefore.value task
      _ < (notifyPending t i).notificationValue task := hexpires.woken task htask
      _ ≤ (sweepPending s now).notificationValue task := hafter.value task

/-- The sweep has come to a state in which the entry has stayed, and only tasks of other entries
    have been woken. -/
structure Passing (s : ArpState) (i : PendingIdx) (t : ArpState) : Prop extends Stays s i t where
  waiting : ∀ j, (t.arpPendingTasks j).waitingTasks ⊆ (s.arpPendingTasks j).waitingTasks

theorem Passing.refl (s : ArpState) (i : PendingIdx) : Passing s i s :=
  ⟨⟨rfl, fun _ _ => rfl⟩, fun _ => List.Subset.refl _⟩

theorem Passing.notify {t : ArpState} (h : Passing s i t) {j : PendingIdx} (hj : j ≠ i) :
    Passing s i (notifyPending t j) := by
  refine ⟨⟨?_, fun task htask => ?_⟩, fun k => ?_⟩
  · rw [pending_notifyPending, Function.update_of_ne (Ne.symm hj), h.entry]
  · have hnot : task ∉ (t.arpPendingTasks j).waitingTasks := fun hmem =>
      htask j hj (h.waiting j hmem)
    rw [value_notifyPending, List.count_eq_zero_of_not_mem hnot, Nat.add_zero]
    exact h.asleep task htask
  · rw [pending_notifyPending]
    by_cases hk : k = j
    · subst hk
      rw [Function.update_self]
      exact List.nil_subset _
    · rw [Function.update_of_ne hk]
      exact h.waiting k

/-- An entry whose tick has not come by plain order stays. -/
theorem sweepPending_stays (h : ¬ (s.arpPendingTasks i).expirationTick ≤ now) :
    Stays s i (sweepPending s now) := by
  have hpassing : Passing s i (sweepPending s now) := by
    refine forIdx_invariant (P := Passing s i) (fun j t ht => ?_) (.refl s i)
    unfold expirePending
    split
    case isTrue hdue =>
        apply ht.notify
        rintro rfl
        rw [ht.entry] at hdue
        exact h hdue
    case isFalse => exact ht
  exact hpassing.toStays

end Sweep

/-- The test of the sweep is the test of the elapsed time, unless only one of the sums wraps. -/
theorem due_iff {now elapsed : BitVec 32} :
    (now + arpTimeoutTicks ≤ now + elapsed ↔ arpTimeoutTicks ≤ elapsed) ↔ SameWrap now elapsed := by
  have hnow := now.isLt
  have helapsed := elapsed.isLt
  have htimeout : arpTimeoutTicks.toNat = 100 := rfl
  unfold SameWrap
  rw [BitVec.le_def, BitVec.le_def, BitVec.toNat_add, BitVec.toNat_add, htimeout]
  omega

/-- `elapsed` ticks after `alloc_pending`, the sweep is on time exactly if the stored tick and the
    tick of the sweep have both wrapped or both not. -/
theorem sweep_onTime_iff {s allocated t : ArpState} {ip : Ipv4Addr} {now elapsed : BitVec 32}
    {i : PendingIdx} (halloc : allocPending s ip now = some (allocated, i))
    (hentry : (t.arpPendingTasks i).expirationTick =
      (allocated.arpPendingTasks i).expirationTick)
    (htasks : (t.arpPendingTasks i).waitingTasks ≠ []) :
    OnTime t i elapsed (sweepPending t (now + elapsed)) ↔ SameWrap now elapsed := by
  obtain ⟨-, rfl⟩ := allocPending_some halloc
  have hexpiration : (t.arpPendingTasks i).expirationTick = now + arpTimeoutTicks := by
    rw [hentry]
    exact congrArg ArpPending.expirationTick (Function.update_self i _ s.arpPendingTasks)
  rw [← due_iff, ← hexpiration]
  constructor
  · intro honTime
    constructor
    · intro hdue
      -- an entry that has expired has not stayed
      by_contra hearly
      have hstays := honTime.stays (BitVec.not_le.mp hearly)
      have hexpires := sweepPending_expires hdue
      exact htasks (hstays.entry ▸ hexpires.freed)
    · intro hup
      by_contra hlate
      have hstays := sweepPending_stays hlate
      exact htasks (hstays.entry ▸ (honTime.expires hup).freed)
  · intro hsame
    constructor
    · intro hup
      exact sweepPending_expires (hsame.mpr hup)
    · intro hearly
      exact sweepPending_stays fun hdue => absurd (hsame.mp hdue) (BitVec.not_le.mpr hearly)

/-- A node on which nobody waits. -/
def idleArp : ArpState where
  selfIpAddr := ⟨10, 0, 0, 100⟩
  selfMacAddr := ⟨2, 0, 0, 0, 0, 100⟩

/-- There an entry for 10.0.0.7 is made at the tick `now`. -/
def entryMade (now : BitVec 32) : ArpState :=
  idleArp.setPending 0
    { expirationTick := now + arpTimeoutTicks, waitingTasks := [], ip := ⟨10, 0, 0, 7⟩ }

/-- A task that waits from tick 0 on is woken after 100 ticks. -/
theorem expires_after_timeout :
    allocPending idleArp ⟨10, 0, 0, 7⟩ 0 = some (entryMade 0, 0) ∧
      OnTime (addWaitingTask (entryMade 0) 0 1) 0 100
        (sweepPending (addWaitingTask (entryMade 0) 0 1) (0 + 100)) := by
  have halloc : allocPending idleArp ⟨10, 0, 0, 7⟩ 0 = some (entryMade 0, 0) := rfl
  exact ⟨halloc, (sweep_onTime_iff halloc (by decide) (by decide)).mpr (by decide)⟩

/-- A task that begins to wait 50 ticks before the counter wraps is woken after one tick. -/
theorem expires_at_once :
    allocPending idleArp ⟨10, 0, 0, 7⟩ 0xFFFFFFCE = some (entryMade 0xFFFFFFCE, 0) ∧
      ¬ OnTime (addWaitingTask (entryMade 0xFFFFFFCE) 0 1) 0 1
        (sweepPending (addWaitingTask (entryMade 0xFFFFFFCE) 0 1) (0xFFFFFFCE + 1)) := by
  refine ⟨rfl, ?_⟩
  intro honTime
  have hdue : ((addWaitingTask (entryMade 0xFFFFFFCE) 0 1).arpPendingTasks 0).expirationTick ≤
      0xFFFFFFCE + 1 := by decide
  have hfreed := (sweepPending_expires hdue).freed
  rw [(honTime.stays (by decide)).entry] at hfreed
  exact absurd hfreed (by decide)

end NetStack.Arp
