import NetStack.Arp.Proofs.Notifications
import NetStack.Arp.Proofs.Service
import NetStack.Arp.Proofs.Timeouts

/-!
# How long a caller waits

A task that waits in `arp_get_mac_addr` is notified in bounded time, whatever the others do: `arp_task`
comes to its request within as many iterations as its queue set has room for handles, and the first
sweep `ARP_TIMEOUT_TICKS` after that gives up the entry in which the task is recorded then, unless the
reply has come before. Ticks are compared as the source compares them, as numbers: all of this is about
runs in which the tick counter has not wrapped since boot.
-/

namespace NetStack.Arp
open NetStack.Lib NetStack.Eth

section Worker
variable {s t : ArpState} {i : PendingIdx} {task : TaskHandle} {now : BitVec 32}

/-! ### What the worker does with a recorded task -/

/-- No notification is taken back, an entry gets no other tick than the one for `now`, and a task that
    is recorded is notified, or stays in its entry, whose tick stays. -/
structure Follows (now : BitVec 32) (s t : ArpState) : Prop where
  value : ∀ task, s.notificationValue task ≤ t.notificationValue task
  tick : ∀ i, (t.arpPendingTasks i).expirationTick = (s.arpPendingTasks i).expirationTick ∨
    (t.arpPendingTasks i).expirationTick = now + arpTimeoutTicks
  waits : ∀ i, ∀ task ∈ (s.arpPendingTasks i).waitingTasks,
    s.notificationValue task < t.notificationValue task ∨
      task ∈ (t.arpPendingTasks i).waitingTasks ∧
        (t.arpPendingTasks i).expirationTick = (s.arpPendingTasks i).expirationTick

theorem Follows.of_same (hvalue : t.notificationValue = s.notificationValue)
    (hpending : t.arpPendingTasks = s.arpPendingTasks) : Follows now s t where
  value task := by rw [hvalue]
  tick i := .inl (by rw [hpending])
  waits i task htask := .inr (by rw [hpending]; exact ⟨htask, rfl⟩)

theorem Follows.refl (now : BitVec 32) (s : ArpState) : Follows now s s := .of_same rfl rfl

theorem Follows.trans {u : ArpState} (h : Follows now s t) (h' : Follows now t u) :
    Follows now s u where
  value task := Nat.le_trans (h.value task) (h'.value task)
  tick i := by
    rcases h'.tick i with hsame | hnew
    · rw [hsame]
      exact h.tick i
    · exact .inr hnew
  waits i task htask := by
    rcases h.waits i task htask with hlt | ⟨hstays, htick⟩
    · exact .inl (Nat.lt_of_lt_of_le hlt (h'.value task))
    · rcases h'.waits i task hstays with hlt | ⟨hstays', htick'⟩
      · exact .inl (Nat.lt_of_le_of_lt (h.value task) hlt)
      · exact .inr ⟨hstays', htick'.trans htick⟩

theorem follows_taskNotifyGive (s : ArpState) (task : TaskHandle) :
    Follows now s (taskNotifyGive s task) where
  value task' := by
    by_cases htask : task' = task
    · subst htask
      simp [taskNotifyGive]
    · simp [taskNotifyGive, htask]
  tick _ := .inl rfl
  waits _ _ htask := .inr ⟨htask, rfl⟩

/-- One entry gets other tasks: those it had are notified. -/
theorem follows_notifyPending (s : ArpState) (i : PendingIdx) : Follows now s (notifyPending s i) := by
  refine ⟨fun task => ?_, fun j => .inl ?_, fun j task htask => ?_⟩
  · rw [value_notifyPending]
    exact Nat.le_add_right _ _
  · rw [pending_notifyPending]
    by_cases hj : j = i
    · subst hj
      rw [Function.update_self]
    · rw [Function.update_of_ne hj]
  · by_cases hj : j = i
    · subst hj
      exact .inl ((expires_notifyPending s j).woken task htask)
    · rw [pending_notifyPending, Function.update_of_ne hj]
      exact .inr ⟨htask, rfl⟩

theorem follows_addWaitingTask (s : ArpState) (i : PendingIdx) (task : TaskHandle) :
    Follows now s (addWaitingTask s i task) := by
  unfold addWaitingTask
  dsimp only
  split
  case isTrue => exact follows_taskNotifyGive s task
  case isFalse =>
      refine ⟨fun _ => Nat.le_refl _, fun j => .inl ?_, fun j task' htask => .inr ?_⟩
      · by_cases hj : j = i
        · subst hj
          simp [ArpState.setPending]
        · simp [ArpState.setPending, hj]
      · by_cases hj : j = i
        · subst hj
          simp [ArpState.setPending, htask]
        · simp [ArpState.setPending, hj, htask]

/-- The entry that `alloc_pending` prepares has been free. -/
theorem follows_allocPending {allocated : ArpState} {ip : Ipv4Addr}
    (h : allocPending s ip now = some (allocated, i)) : Follows now s allocated := by
  obtain ⟨hfree, rfl⟩ := allocPending_some h
  refine ⟨fun _ => Nat.le_refl _, fun j => ?_, fun j task htask => .inr ?_⟩
  · by_cases hj : j = i
    · subst hj
      simp [ArpState.setPending]
    · simp [ArpState.setPending, hj]
  · have hj : j ≠ i := by
      rintro rfl
      rw [hfree] at htask
      cases htask
    simp [ArpState.setPending, hj, htask]

theorem follows_handleRequest (s : ArpState) (request : ArpRequest) (env : ArpTaskEnv) :
    Follows env.allocTick s (handleRequest s request env) := by
  unfold handleRequest
  split
  case h_1 i _ => exact follows_addWaitingTask s i request.task
  case h_2 =>
      split
      case h_1 => exact follows_taskNotifyGive s request.task
      case h_2 allocated i halloc =>
          have hsent : Follows env.allocTick s { allocated with
              toArpGlobals := (sendArpRequest allocated.toArpGlobals request.ip env.request).1 } :=
            (follows_allocPending halloc).trans (.of_same rfl rfl)
          dsimp only
          split
          · exact hsent.trans (follows_taskNotifyGive _ request.task)
          · exact hsent.trans (follows_addWaitingTask _ i request.task)

theorem follows_addIpMacCacheEntry (s : ArpState) (entry : ArpEntry) :
    Follows now s (addIpMacCacheEntry s entry) := by
  have hstored : Follows now s (storeCacheEntry s entry) := by
    rw [storeCacheEntry_eq]
    exact .of_same rfl rfl
  unfold addIpMacCacheEntry
  dsimp only
  split
  · exact hstored
  · exact hstored.trans (follows_notifyPending _ _)

theorem follows_sweepPending (s : ArpState) (tick : BitVec 32) :
    Follows now s (sweepPending s tick) := by
  unfold sweepPending
  apply forIdx_related (Follows.refl now) Follows.trans
  intro i u
  unfold expirePending
  split
  · exact follows_notifyPending u i
  · exact .refl now u

theorem follows_selectFromSet (s : ArpState) : Follows now s (selectFromSet s).1 := by
  unfold selectFromSet
  split <;> exact .of_same rfl rfl

theorem follows_handleSelected (s : ArpState) (handle : Option ArpQueueHandle) (env : ArpTaskEnv) :
    Follows env.allocTick s (handleSelected s handle env) := by
  unfold handleSelected
  split
  · split
    case h_1 => exact .refl _ s
    case h_2 request queue _ =>
        have hdequeued : Follows env.allocTick s (dequeueRequest s request queue) :=
          .of_same rfl rfl
        exact hdequeued.trans (follows_handleRequest _ request env)
  · split
    case h_1 => exact .refl _ s
    case h_2 entry queue _ =>
        have hreceived : Follows env.allocTick s { s with arpInputQueue := queue } :=
          .of_same rfl rfl
        exact hreceived.trans (follows_addIpMacCacheEntry _ entry)
  · exact .refl _ s

theorem follows_arpTaskIteration (s : ArpState) (env : ArpTaskEnv) :
    Follows env.allocTick s (arpTaskIteration s env) :=
  ((follows_selectFromSet s).trans (follows_sweepPending _ env.sweepTick)).trans
    (follows_handleSelected _ _ env)

/-- A sweep at a tick that an entry has come to by plain order notifies its tasks. -/
theorem woken_arpTaskIteration {env : ArpTaskEnv} (htask : task ∈ (s.arpPendingTasks i).waitingTasks)
    (hdue : (s.arpPendingTasks i).expirationTick ≤ env.sweepTick) :
    s.notificationValue task < (arpTaskIteration s env).notificationValue task := by
  have hselected : (selectFromSet s).1.arpPendingTasks = s.arpPendingTasks ∧
      (selectFromSet s).1.notificationValue = s.notificationValue := by
    unfold selectFromSet
    split <;> exact ⟨rfl, rfl⟩
  have hexpires : Expires (selectFromSet s).1 i (sweepPending (selectFromSet s).1 env.sweepTick) :=
    sweepPending_expires (by rw [hselected.1]; exact hdue)
  calc s.notificationValue task
      = (selectFromSet s).1.notificationValue task := by rw [hselected.2]
    _ < (sweepPending (selectFromSet s).1 env.sweepTick).notificationValue task :=
        hexpires.woken task (by rw [hselected.1]; exact htask)
    _ ≤ (arpTaskIteration s env).notificationValue task :=
        (follows_handleSelected _ _ env).value task

end Worker

/-! ### What a caller waits for -/

/-- The clock of `alloc_pending` shows `now` at the latest. -/
def Action.datedBy (now : BitVec 32) : Action → Prop
  | .arpTask env => env.allocTick ≤ now
  | _ => True

instance (now : BitVec 32) : ∀ a : Action, Decidable (a.datedBy now)
  | .arpTask env => inferInstanceAs (Decidable (env.allocTick ≤ now))
  | .arpInput .. | .arpGetMacAddr .. | .internalSendIpv4Packet .. | .resume .. => isTrue trivial

/-- The caller is one of those that can return from `ulTaskNotifyTake`. -/
def CanResume (c : ArpCaller) (s : System) : Prop :=
  ∃ k, s.callers[k]? = some c ∧ ∀ eth, (step s (.resume k eth)).isSome

/-- The caller waits, and has not been notified. -/
structure Asleep (c : ArpCaller) (s : System) : Prop where
  caller : c ∈ s.callers
  value : s.arp.notificationValue c.request.task = 0

section Callers
variable {s s' t : System} {c : ArpCaller} {now : BitVec 32} {n : Nat} {a : Action}
  {selfNet : NetContext}

theorem canResume_or_asleep (hc : c ∈ s.callers) : CanResume c s ∨ Asleep c s := by
  by_cases hvalue : s.arp.notificationValue c.request.task = 0
  · exact .inr ⟨hc, hvalue⟩
  · obtain ⟨k, hk⟩ := List.mem_iff_getElem?.mp hc
    refine .inl ⟨k, hk, fun eth => ?_⟩
    simp only [step, resumeCaller, hk, if_neg hvalue]
    split <;> rfl

theorem CanResume.notified (h : CanResume c s) :
    c ∈ s.callers ∧ s.arp.notificationValue c.request.task ≠ 0 := by
  obtain ⟨k, hk, hresume⟩ := h
  obtain ⟨s', hs'⟩ := Option.isSome_iff_exists.mp (hresume ⟨none, .ok⟩)
  obtain ⟨c', hc', hvalue, -⟩ := resumeCaller_some hs'
  obtain rfl := Option.some.inj (hk.symm.trans hc')
  exact ⟨List.mem_of_getElem? hk, hvalue⟩

/-- Only a caller that has been notified returns. -/
theorem Asleep.stays (h : Asleep c s) (hs' : step s a = some s') : c ∈ s'.callers := by
  cases a with
  | arpTask | arpInput => exact Option.some.inj hs' ▸ h.caller
  | arpGetMacAddr =>
      obtain ⟨-, -, rfl⟩ := beginRequest_some hs'
      exact List.mem_append_left _ h.caller
  | internalSendIpv4Packet task params malloc =>
      cases malloc with
      | none => exact Option.some.inj hs' ▸ h.caller
      | some heap =>
          obtain ⟨-, -, rfl⟩ := beginRequest_some hs'
          exact List.mem_append_left _ h.caller
  | resume k eth =>
      obtain ⟨c', hc', hvalue, rfl⟩ := resumeCaller_some hs'
      obtain ⟨j, hj⟩ := List.mem_iff_getElem?.mp h.caller
      refine List.mem_eraseIdx_iff_getElem?.mpr ⟨j, ?_, hj⟩
      rintro rfl
      obtain rfl := Option.some.inj (hj.symm.trans hc')
      exact hvalue h.value

/-- The table of the pending requests is the worker's. -/
theorem step_pending (hs' : step s a = some s') :
    s'.arp.arpPendingTasks = s.arp.arpPendingTasks ∨ ∃ env, a = .arpTask env ∧
      s'.arp = arpTaskIteration s.arp env := by
  cases a with
  | arpTask env => exact .inr ⟨env, rfl, (Option.some.inj hs').symm ▸ rfl⟩
  | arpInput => exact .inl (Option.some.inj hs' ▸ rfl)
  | arpGetMacAddr =>
      obtain ⟨-, -, rfl⟩ := beginRequest_some hs'
      exact .inl rfl
  | internalSendIpv4Packet task params malloc =>
      cases malloc with
      | none => exact .inl (Option.some.inj hs' ▸ rfl)
      | some heap =>
          obtain ⟨-, -, rfl⟩ := beginRequest_some hs'
          exact .inl rfl
  | resume =>
      obtain ⟨c', -, -, rfl⟩ := resumeCaller_some hs'
      exact .inl rfl

/-- Every entry expires `ARP_TIMEOUT_TICKS` after `now` at the latest. -/
def ExpiresBy (now : BitVec 32) (s : ArpState) : Prop :=
  ∀ i, (s.arpPendingTasks i).expirationTick.toNat ≤ now.toNat + arpTimeoutTicks.toNat

theorem expiresBy_step (h : ExpiresBy now s.arp) (hdated : a.datedBy now)
    (hs' : step s a = some s') : ExpiresBy now s'.arp := by
  intro i
  rcases step_pending hs' with hsame | ⟨env, rfl, hiteration⟩
  · rw [hsame]
    exact h i
  · rw [hiteration]
    rcases (follows_arpTaskIteration s.arp env).tick i with hsame | hnew
    · rw [hsame]
      exact h i
    · have hle : env.allocTick.toNat ≤ now.toNat := BitVec.le_def.mp hdated
      rw [hnew, BitVec.toNat_add]
      exact Nat.le_trans (Nat.mod_le _ _) (Nat.add_le_add_right hle _)

/-- The request of the caller is with the first `n` handles of the queue set, or has been taken up. -/
structure Queued (now : BitVec 32) (c : ArpCaller) (n : Nat) (s : System) : Prop
    extends Asleep c s where
  balanced : Balanced s
  expires : ExpiresBy now s.arp
  ahead : ∀ k request, s.arp.arpRequestQueue[k]? = some request →
    request.task = c.request.task → (stock s.arp).Reaches n .requestQueue (k + 1)

/-- The caller is recorded in an entry that expires in time. -/
structure Recorded (now : BitVec 32) (c : ArpCaller) (s : System) : Prop extends Asleep c s where
  entry : ∃ i, c.request.task ∈ (s.arp.arpPendingTasks i).waitingTasks ∧
    (s.arp.arpPendingTasks i).expirationTick.toNat ≤ now.toNat + arpTimeoutTicks.toNat

/-- What the request has before it after a step of one of the other tasks. -/
theorem ahead_beginRequest {request : ArpRequest} {packet : Option (Ipv4TransmitParams × Memory)}
    (h : Queued now c n s) (hs' : beginRequest s request packet = some s') :
    ∀ k request, s'.arp.arpRequestQueue[k]? = some request →
      request.task = c.request.task → (stock s'.arp).Reaches n .requestQueue (k + 1) := by
  have hgrows := grows_beginRequest hs'
  obtain ⟨hidle, -, rfl⟩ := beginRequest_some hs'
  intro k r hk htask
  refine Stock.Reaches.grows ?_ hgrows
  dsimp only at hk
  by_cases hlt : k < s.arp.arpRequestQueue.length
  · rw [List.getElem?_append_left hlt] at hk
    exact h.ahead k r hk htask
  · -- the new request is not the caller's, who has one already
    rw [List.getElem?_append_right (Nat.le_of_not_lt hlt)] at hk
    have hr : r = request := by
      have hmem := List.mem_of_getElem? hk
      exact List.mem_singleton.mp hmem
    exact absurd (hr ▸ htask).symm (hidle c h.caller)

/-- An iteration of the worker takes up something from before the request. -/
theorem ahead_arpTaskIteration (h : Queued now c n s) (env : ArpTaskEnv) :
    ∀ k request, (arpTaskIteration s.arp env).arpRequestQueue[k]? = some request →
      request.task = c.request.task →
        (stock (arpTaskIteration s.arp env)).Reaches (n - 1) .requestQueue (k + 1) := by
  intro k r hk htask
  have hitem : ((stock (arpTaskIteration s.arp env)).items .requestQueue)[k]? =
      some (.request r) := by
    simp [stock, hk]
  rw [stock_arpTaskIteration] at hitem ⊢
  obtain ⟨j, hj, hnearer⟩ := Stock.reaches_select hitem
  refine hnearer (h.ahead j r ?_ htask)
  simpa [stock] using hj

/-- No step puts a caller's request off, and an iteration of the worker brings it nearer. -/
theorem queued_step (h : Queued now c n s) (hdated : a.datedBy now) (hs' : step s a = some s') :
    CanResume c s' ∨ Queued now c (if a.isArpTask then n - 1 else n) s' := by
  rcases canResume_or_asleep (h.stays hs') with hresume | hasleep
  · exact .inl hresume
  · refine .inr ⟨hasleep, balanced_step h.balanced hs', expiresBy_step h.expires hdated hs', ?_⟩
    cases a with
    | arpTask env =>
        obtain rfl := Option.some.inj hs'
        exact ahead_arpTaskIteration h env
    | arpInput buffer len env =>
        obtain rfl := Option.some.inj hs'
        intro k r hk htask
        exact (h.ahead k r hk htask).grows (grows_arpInput buffer len env)
    | arpGetMacAddr => exact ahead_beginRequest h hs'
    | internalSendIpv4Packet task params malloc =>
        cases malloc with
        | none =>
            obtain rfl := Option.some.inj hs'
            exact h.ahead
        | some heap => exact ahead_beginRequest h hs'
    | resume =>
        obtain ⟨c', -, -, rfl⟩ := resumeCaller_some hs'
        exact h.ahead

/-- A recorded caller stays recorded until it has been notified. -/
theorem recorded_step (h : Recorded now c s) (hs' : step s a = some s') :
    CanResume c s' ∨ Recorded now c s' := by
  rcases canResume_or_asleep (h.stays hs') with hresume | hasleep
  · exact .inl hresume
  · refine .inr ⟨hasleep, ?_⟩
    obtain ⟨i, htask, htick⟩ := h.entry
    rcases step_pending hs' with hsame | ⟨env, -, hiteration⟩
    · exact ⟨i, by rw [hsame]; exact htask, by rw [hsame]; exact htick⟩
    · rw [hiteration]
      rcases (follows_arpTaskIteration s.arp env).waits i _ htask with hlt | ⟨hstays, hsame⟩
      · rw [← hiteration, hasleep.value] at hlt
        exact absurd hlt (Nat.not_lt_zero _)
      · exact ⟨i, hstays, by rw [hsame]; exact htick⟩

/-- A caller that begins to wait is in the queue or recorded: the set of handles is in sync, and its
    whole length comes before the request. -/
theorem queued_of_reachable (hreach : Reachable step (boot selfNet) s) (hexpires : ExpiresBy now s.arp)
    (hasleep : Asleep c s) : Queued now c arpQueueSetLength s := by
  refine ⟨hasleep, balanced_of_reachable hreach, hexpires, fun k r hk _ => ?_⟩
  obtain ⟨hfits, hsync⟩ := inSync_of_reachable hreach
  have hlength : s.arp.arpQueueSet.length ≤ arpQueueSetLength := by
    rw [← sum_memberLength]
    exact hsync.length.le.trans (Finset.sum_le_sum fun h _ => hfits h)
  rw [← backlog_stock] at hsync
  refine Stock.reaches_of_inSync hsync hlength ?_
  simpa [stock, Nat.succ_le_iff] using (List.getElem?_eq_some_iff.mp hk).1

/-- A caller whose request has been taken up and that has not been notified is recorded. -/
theorem Queued.recorded (h : Queued now c 0 s) : Recorded now c s := by
  refine ⟨h.toAsleep, ?_⟩
  have hqueue : (s.arp.arpRequestQueue.map (·.task)).count c.request.task = 0 := by
    rw [List.count_eq_zero]
    intro hmem
    obtain ⟨r, hr, htask⟩ := List.mem_map.mp hmem
    obtain ⟨k, hk⟩ := List.mem_iff_getElem?.mp hr
    exact absurd (h.ahead k r hk htask) Stock.not_reaches_zero
  have hcaller : 0 < (s.callers.map (·.request.task)).count c.request.task :=
    List.count_pos_iff.mpr (List.mem_map.mpr ⟨c, h.caller, rfl⟩)
  have howed := h.balanced.balance c.request.task
  rw [owed, hqueue, h.value] at howed
  have hrecorded : recordedCount s.arp c.request.task ≠ 0 := by omega
  rw [Ne, recordedCount_eq_zero_iff, not_forall] at hrecorded
  obtain ⟨i, htask⟩ := hrecorded
  have htask := not_not.mp htask
  exact ⟨i, htask, h.expires i⟩

/-- A sweep at a late tick notifies a recorded caller. -/
theorem Recorded.swept {env : ArpTaskEnv} (h : Recorded now c s)
    (hlate : now.toNat + arpTimeoutTicks.toNat ≤ env.sweepTick.toNat)
    (hs' : step s (.arpTask env) = some s') : CanResume c s' := by
  rcases canResume_or_asleep (h.stays hs') with hresume | hasleep
  · exact hresume
  · obtain ⟨i, htask, htick⟩ := h.entry
    have hdue : (s.arp.arpPendingTasks i).expirationTick ≤ env.sweepTick :=
      BitVec.le_def.mpr (Nat.le_trans htick hlate)
    have hwoken := woken_arpTaskIteration htask hdue
    obtain rfl := Option.some.inj hs'
    have hvalue : (arpTaskIteration s.arp env).notificationValue c.request.task = 0 := hasleep.value
    rw [hvalue] at hwoken
    exact absurd hwoken (Nat.not_lt_zero _)

/-- A caller that has been notified goes on waiting until it is resumed itself. -/
theorem notified_step (hc : c ∈ s.callers) (hvalue : s.arp.notificationValue c.request.task ≠ 0)
    (hsingle : (s.callers.map (·.request.task)).Nodup) (hs' : step s a = some s') :
    (c ∈ s'.callers ∧ s'.arp.notificationValue c.request.task ≠ 0) ∨
      ∃ k eth, a = .resume k eth ∧ s.callers[k]? = some c := by
  cases a with
  | arpTask env =>
      obtain rfl := Option.some.inj hs'
      have hle := (follows_arpTaskIteration s.arp env).value c.request.task
      exact .inl ⟨hc, Nat.ne_of_gt (Nat.lt_of_lt_of_le (Nat.pos_of_ne_zero hvalue) hle)⟩
  | arpInput =>
      obtain rfl := Option.some.inj hs'
      exact .inl ⟨hc, hvalue⟩
  | arpGetMacAddr =>
      obtain ⟨-, -, rfl⟩ := beginRequest_some hs'
      exact .inl ⟨List.mem_append_left _ hc, hvalue⟩
  | internalSendIpv4Packet task params malloc =>
      cases malloc with
      | none =>
          obtain rfl := Option.some.inj hs'
          exact .inl ⟨hc, hvalue⟩
      | some heap =>
          obtain ⟨-, -, rfl⟩ := beginRequest_some hs'
          exact .inl ⟨List.mem_append_left _ hc, hvalue⟩
  | resume k eth =>
      obtain ⟨c', hc', -, rfl⟩ := resumeCaller_some hs'
      obtain ⟨j, hj⟩ := List.mem_iff_getElem?.mp hc
      by_cases hjk : j = k
      · subst hjk
        exact .inr ⟨j, eth, rfl, hj⟩
      · -- another task takes its notification
        have htask : c.request.task ≠ c'.request.task := by
          intro heq
          have hjtask : (s.callers.map (·.request.task))[j]? = some c.request.task := by
            rw [List.getElem?_map, hj]
            rfl
          have hktask : (s.callers.map (·.request.task))[k]? = some c.request.task := by
            rw [List.getElem?_map, hc', heq]
            rfl
          have hlt := (List.getElem?_eq_some_iff.mp hjtask).1
          exact hjk ((List.getElem?_inj hlt hsingle).mp (hjtask.trans hktask.symm))
        refine .inl ⟨List.mem_eraseIdx_iff_getElem?.mpr ⟨j, hjk, hj⟩, ?_⟩
        simpa [taskNotifyTake, Function.update_of_ne htask] using hvalue

/-! ### Runs -/

theorem expiresBy_of_run {as : List Action} (hs : run step (boot selfNet) as = some s)
    (hdated : ∀ a ∈ as, a.datedBy now) : ExpiresBy now s.arp :=
  run_invariant (P := fun s : System => ExpiresBy now s.arp) (C := fun _ a => a.datedBy now)
    (fun _ _ _ h hdated hs' => expiresBy_step h hdated hs') (fun _ => Nat.zero_le _)
    (guarded_of_forall _ hdated) hs

end Callers

section Parts
variable {σ α : Type} {whole : σ → α → Option σ} {part : σ → System} {isRound : α → Bool}
  {dated : α → Prop} {now : BitVec 32} {c : ArpCaller}

/-- The component is a part of a machine: each step of the whole is one of its steps or leaves it
    alone, and the rounds are the iterations of `arp_task`. -/
structure IsPart (whole : σ → α → Option σ) (part : σ → System) (isRound : α → Bool)
    (dated : α → Prop) (now : BitVec 32) : Prop where
  steps : ∀ s a s', whole s a = some s' → (part s' = part s ∧ isRound a = false) ∨
    ∃ b, step (part s) b = some (part s') ∧ b.isArpTask = isRound a ∧ (dated a → b.datedBy now)

/-- A caller of the component is released, in whatever machine it is a part of: the worker comes to its
    request in the first part of the run, and to the entry's sweep in the last step. -/
theorem IsPart.released {s t u v : σ} {bs ds : List α} {a : α} {env : ArpTaskEnv}
    (hpart : IsPart whole part isRound dated now) (hc : c ∈ (part s).callers)
    (hqueued : Asleep c (part s) → Queued now c arpQueueSetLength (part s))
    (hu : run whole s bs = some u) (hv : run whole u ds = some v) (hlast : whole v a = some t)
    (hsweep : step (part v) (.arpTask env) = some (part t))
    (hserved : arpQueueSetLength ≤ bs.countP isRound) (hdated : ∀ b ∈ bs, dated b)
    (hlate : now.toNat + arpTimeoutTicks.toNat ≤ env.sweepTick.toNat) :
    Visits whole (fun s => CanResume c (part s)) s (bs ++ ds ++ [a]) := by
  have hhere : ∀ {s as}, CanResume c (part s) → Visits whole (fun s => CanResume c (part s)) s as :=
    fun h => .here (Q := fun s => CanResume c (part s)) h _
  rcases canResume_or_asleep hc with hresume | hasleep
  · exact hhere hresume
  · have hfirst : Visits whole (fun s => CanResume c (part s)) s bs ∨
        Queued now c (arpQueueSetLength - bs.countP isRound) (part u) := by
      refine visits_or_of_ticks isRound (R := fun n s => Queued now c n (part s)) ?_ (hqueued hasleep)
        (guarded_of_forall s hdated) hu
      intro n s a s' h hdated hs'
      rcases hpart.steps s a s' hs' with ⟨hsame, hround⟩ | ⟨b, hb, hround, hbdated⟩
      · rw [hsame, hround]
        exact .inr h
      · rw [← hround]
        exact queued_step h (hbdated hdated) hb
    rcases hfirst with hvisits | hqueued
    · exact (hvisits.append ds).append _
    · rw [Nat.sub_eq_zero_of_le hserved] at hqueued
      -- the entry waits for its sweep
      have hsecond : Visits whole (fun s => CanResume c (part s)) u ds ∨
          Recorded now c (part v) := by
        refine visits_or_of_lasting (R := fun s => Recorded now c (part s)) ?_ hqueued.recorded
          (guarded_true u ds) hv
        intro s a s' h _ hs'
        rcases hpart.steps s a s' hs' with ⟨hsame, -⟩ | ⟨b, hb, -, -⟩
        · rw [hsame]
          exact .inr h
        · exact recorded_step h hb
      rcases hsecond with hvisits | hrecorded
      · exact (hvisits.after hu).append _
      · have hresume := hrecorded.swept hlate hsweep
        refine .after (t := v) ?_ (.cons hlast (hhere hresume))
        rw [run_append, hu]
        exact hv

end Parts

/-- **A caller waits for a bounded time.** Let a task wait in `arp_get_mac_addr`. In every run in which
    `arp_task` comes round as often as its queue set is long, and then, after whatever else, sweeps
    `ARP_TIMEOUT_TICKS` after all requests from boot to the end of the first part were dated, there is a
    state in which the task can return. These readings are compared as numbers: the tick counter has not
    wrapped. -/
theorem caller_released {selfNet : NetContext} {s t : System} {c : ArpCaller} {now : BitVec 32}
    {as bs ds : List Action} {env : ArpTaskEnv}
    (hs : run step (boot selfNet) as = some s) (hc : c ∈ s.callers)
    (hrun : run step s (bs ++ ds ++ [.arpTask env]) = some t)
    (hserved : arpQueueSetLength ≤ bs.countP Action.isArpTask)
    (hdated : ∀ a ∈ as ++ bs, a.datedBy now)
    (hlate : now.toNat + arpTimeoutTicks.toNat ≤ env.sweepTick.toNat) :
    Visits step (CanResume c) s (bs ++ ds ++ [.arpTask env]) := by
  obtain ⟨v, hv, hlast⟩ := run_snoc hrun
  obtain ⟨u, hu, hv⟩ := run_split hv
  have hpart : IsPart step id Action.isArpTask (Action.datedBy now) now :=
    ⟨fun _ a _ hs' => .inr ⟨a, hs', rfl, id⟩⟩
  have hexpires := expiresBy_of_run hs fun a ha => hdated a (List.mem_append_left _ ha)
  exact hpart.released hc (queued_of_reachable ⟨as, hs⟩ hexpires) hu hv hlast hlast hserved
    (fun a ha => hdated a (List.mem_append_right _ ha)) hlate

/-- An iteration of `arp_task` at the tick `now`. -/
def roundAt (now : BitVec 32) : Action := .arpTask ⟨now, now, fun _ => 0, some fun _ => 0, .ok⟩

/-- Task 7 asks for 10.0.0.2, and nobody answers. -/
theorem caller_released_unanswered :
    ∃ s, run step (boot ⟨⟨2, 0, 0, 0, 0, 1⟩, ⟨10, 0, 0, 1⟩⟩) [.arpGetMacAddr 7 ⟨10, 0, 0, 2⟩] = some s ∧
      Visits step (CanResume ⟨⟨⟨10, 0, 0, 2⟩, 7⟩, none⟩) s
        (List.replicate 8 (roundAt 5) ++ [.arpGetMacAddr 8 ⟨10, 0, 0, 2⟩] ++ [roundAt 105]) := by
  have hruns : (run step (boot ⟨⟨2, 0, 0, 0, 0, 1⟩, ⟨10, 0, 0, 1⟩⟩)
      ([.arpGetMacAddr 7 ⟨10, 0, 0, 2⟩] ++ (List.replicate 8 (roundAt 5) ++
        [.arpGetMacAddr 8 ⟨10, 0, 0, 2⟩] ++ [roundAt 105]))).any (fun _ => true) = true := by
    decide +kernel
  obtain ⟨t, ht, -⟩ := run_any hruns
  rw [run_append] at ht
  obtain ⟨s, hs, ht⟩ := Option.bind_eq_some_iff.mp ht
  have hc : (⟨⟨⟨10, 0, 0, 2⟩, 7⟩, none⟩ : ArpCaller) ∈ s.callers := by
    obtain rfl := Option.some.inj hs
    exact List.mem_singleton.mpr rfl
  have hdated : ∀ a ∈ [.arpGetMacAddr 7 ⟨10, 0, 0, 2⟩] ++ List.replicate 8 (roundAt 5),
      Action.datedBy 5 a := by decide
  exact ⟨s, hs, caller_released hs hc ht (by decide) hdated (by decide)⟩

end NetStack.Arp
