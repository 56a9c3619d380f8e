import NetStack.Arp.Proofs.Waiters

/-!
# Requests, replies and notifications over whole runs

The account of the worker joined with that of its callers: a task that waits in `arp_get_mac_addr`
has one request or one notification somewhere, any other task has none.
-/

namespace NetStack.Arp
open NetStack.Lib NetStack.Eth

/-- The component between two steps. -/
structure Balanced (s : System) : Prop where
  waiters : Waiters s.arp
  balance : ∀ task, owed s.arp task = (s.callers.map (·.request.task)).count task

variable {s s' : System} {selfNet : NetContext}

theorem balanced_boot (selfNet : NetContext) : Balanced (boot selfNet) where
  waiters :=
    { served := fun _ => .answered [] rfl fun _ => List.not_mem_nil
      pending := ⟨fun _ _ h => absurd rfl h, fun _ => Nat.zero_le _⟩
      once := fun _ => by simp [owed, recordedCount, boot] }
  balance _ := by simp [owed, recordedCount, boot]

theorem balanced_beginRequest {request : ArpRequest} {packet : Option (Ipv4TransmitParams × Memory)}
    (h : Balanced s) (hs' : beginRequest s request packet = some s') : Balanced s' := by
  unfold beginRequest at hs'
  split at hs'
  case isTrue => cases hs'
  case isFalse hidle =>
      split at hs'
      case h_1 => cases hs'
      case h_2 queue hqueue =>
          obtain rfl := Option.some.inj hs'
          obtain ⟨-, rfl⟩ := queueSend_eq_some_iff.mp hqueue
          have hbalance := h.balance
          have howed : ∀ task, owed
              { s.arp with
                arpRequestQueue := s.arp.arpRequestQueue ++ [request]
                arpQueueSet := setPost arpQueueSetLength s.arp.arpQueueSet .requestQueue } task =
              owed s.arp task + [request.task].count task := by
            intro task
            simp only [owed, recordedCount, List.map_append, List.map_cons, List.map_nil,
              List.count_append]
            omega
          -- the task has not been in a call
          have hnone : owed s.arp request.task = 0 := by
            have hidle : ∀ c ∈ s.callers, c.request.task ≠ request.task := by simpa using hidle
            rw [hbalance, List.count_eq_zero]
            intro hin
            obtain ⟨c, hc, htask⟩ := List.mem_map.mp hin
            exact hidle c hc htask
          refine ⟨⟨fun task => ?_, ⟨h.waiters.pending.ips, h.waiters.pending.room⟩, fun task => ?_⟩,
            fun task => ?_⟩
          · exact (h.waiters.served task).of_same rfl (fun _ => rfl) fun _ _ => rfl
          · rw [howed]
            by_cases htask : request.task = task
            · subst htask
              rw [hnone, List.count_singleton_self]
            · have honce := h.waiters.once task
              simpa [htask] using honce
          · rw [howed, hbalance]
            simp [List.count_append]

theorem balanced_resumeCaller {k : Nat} {eth : EthEnv} (h : Balanced s)
    (hs' : resumeCaller s k eth = some s') : Balanced s' := by
  unfold resumeCaller at hs'
  split at hs'
  case h_1 => cases hs'
  case h_2 c hc =>
      split at hs'
      case isTrue => cases hs'
      case isFalse hnotified =>
          have hcount : ∀ task, ((s.callers.eraseIdx k).map (·.request.task)).count task +
              (if c.request.task = task then 1 else 0) =
              (s.callers.map (·.request.task)).count task := by
            intro task
            obtain ⟨hk, hget⟩ := List.getElem?_eq_some_iff.mp hc
            have hperm := ((List.getElem_cons_eraseIdx_perm hk).map (·.request.task)).count_eq task
            rw [hget, List.map_cons, List.count_cons] at hperm
            simpa [Nat.add_comm] using hperm
          -- the notification of the caller is the only thing that it is owed
          have howed : ∀ task, owed (taskNotifyTake s.arp c.request.task) task +
              (if c.request.task = task then 1 else 0) = owed s.arp task := by
            intro task
            have honce := h.waiters.once task
            have hrest : (taskNotifyTake s.arp c.request.task).arpRequestQueue = s.arp.arpRequestQueue ∧
                recordedCount (taskNotifyTake s.arp c.request.task) task =
                  recordedCount s.arp task := ⟨rfl, rfl⟩
            rw [owed] at honce
            rw [owed, owed, hrest.1, hrest.2, taskNotifyTake]
            dsimp only
            by_cases htask : c.request.task = task
            · subst htask
              rw [Function.update_self, if_pos rfl]
              omega
            · rw [Function.update_of_ne (Ne.symm htask), if_neg htask]
              rfl
          have hwaiters : Waiters (taskNotifyTake s.arp c.request.task) := by
            refine ⟨?_, ⟨h.waiters.pending.ips, h.waiters.pending.room⟩, ?_⟩
            · intro task
              exact (h.waiters.served task).of_same rfl (fun _ => rfl) fun _ _ => rfl
            · intro task
              exact Nat.le_trans (Nat.le_of_add_right_le (Nat.le_of_eq (howed task)))
                (h.waiters.once task)
          have hbalance : ∀ task, owed (taskNotifyTake s.arp c.request.task) task =
              ((s.callers.eraseIdx k).map (·.request.task)).count task := by
            intro task
            have hbefore := h.balance task
            have hcount := hcount task
            have howed := howed task
            omega
          dsimp only at hs'
          split at hs'
          · obtain rfl := Option.some.inj hs'
            exact ⟨hwaiters, hbalance⟩
          · obtain rfl := Option.some.inj hs'
            exact ⟨hwaiters, hbalance⟩

/-- Every step keeps the account. -/
theorem balanced_step {a : Action} (h : Balanced s) (hs' : step s a = some s') : Balanced s' := by
  cases a with
  | arpTask env =>
      obtain rfl := Option.some.inj hs'
      obtain ⟨hwaiters, howed⟩ := waiters_arpTaskIteration h.waiters env
      exact ⟨hwaiters, fun task => (howed task).trans (h.balance task)⟩
  | arpInput buffer len env =>
      obtain rfl := Option.some.inj hs'
      refine ⟨⟨fun task => ?_, ⟨h.waiters.pending.ips, h.waiters.pending.room⟩, h.waiters.once⟩,
        h.balance⟩
      exact (h.waiters.served task).of_same rfl (fun _ => rfl) fun _ _ => rfl
  | arpGetMacAddr task ip => exact balanced_beginRequest h hs'
  | internalSendIpv4Packet task params malloc =>
      cases malloc with
      | none =>
          obtain rfl := Option.some.inj hs'
          exact ⟨h.waiters, h.balance⟩
      | some heap => exact balanced_beginRequest h hs'
  | resume k eth => exact balanced_resumeCaller h hs'

theorem balanced_of_reachable (hreach : Reachable step (boot selfNet) s) : Balanced s :=
  hreach.invariant (balanced_boot selfNet) fun _ _ _ h hs' => balanced_step h hs'

/-! ### A reply is handled -/

/-- The tasks that are recorded for an address. -/
def recordedFor (s : ArpState) (ip : Ipv4Addr) : List TaskHandle :=
  (List.finRange 8).flatMap fun i =>
    if (s.arpPendingTasks i).ip = ip then (s.arpPendingTasks i).waitingTasks else []

theorem recordedFor_of_none {s : ArpState} {ip : Ipv4Addr} (h : findPending s ip = none) :
    recordedFor s ip = [] := by
  apply List.flatMap_eq_nil_iff.mpr
  intro i _
  split
  case isTrue hip =>
      by_contra hused
      exact findPending_none h i hused hip
  case isFalse => rfl

/-- Different addresses are in different entries. -/
theorem recordedFor_of_some {s : ArpState} {ip : Ipv4Addr} {i : PendingIdx}
    (hpending : DistinctPending s) (h : findPending s ip = some i) :
    recordedFor s ip = (s.arpPendingTasks i).waitingTasks := by
  obtain ⟨hused, hip⟩ := findPending_some h
  obtain ⟨before, after, hsplit⟩ := List.append_of_mem (List.mem_finRange i)
  have hnodup : (before ++ i :: after).Nodup := hsplit ▸ List.nodup_finRange 8
  have hother : ∀ j, j ≠ i →
      (if (s.arpPendingTasks j).ip = ip then (s.arpPendingTasks j).waitingTasks else []) = [] := by
    intro j hj
    split
    case isTrue hjip =>
        by_contra hjused
        exact hj (hpending.ips j i hjused hused (hjip.trans hip.symm))
    case isFalse => rfl
  rw [recordedFor, hsplit, List.flatMap_append, List.flatMap_cons, if_pos hip,
    List.flatMap_eq_nil_iff.mpr, List.flatMap_eq_nil_iff.mpr, List.nil_append, List.append_nil]
  · intro j hj
    apply hother j
    intro hji
    rw [List.nodup_middle, List.nodup_cons] at hnodup
    exact hnodup.1 (List.mem_append_right before (hji ▸ hj))
  · intro j hj
    apply hother j
    intro hji
    rw [List.nodup_middle, List.nodup_cons] at hnodup
    exact hnodup.1 (List.mem_append_left after (hji ▸ hj))

/-- A reply notifies the tasks that are recorded for its address. -/
theorem history_addIpMacCacheEntry {s : ArpState} (hpending : DistinctPending s)
    (entry : ArpEntry) :
    (addIpMacCacheEntry s entry).history =
        s.history ++ (recordedFor s entry.ip).map .notifyGive ∧
      recordedFor (addIpMacCacheEntry s entry) entry.ip = [] := by
  have hstored : storeCacheEntry s entry =
      { s with
        ipMacCache := (storeCacheEntry s entry).ipMacCache
        ipMacCacheTop := (storeCacheEntry s entry).ipMacCacheTop } := storeCacheEntry_eq s entry
  have hsame : recordedFor (storeCacheEntry s entry) entry.ip = recordedFor s entry.ip := by
    rw [hstored]
    rfl
  have hhistory : (storeCacheEntry s entry).history = s.history := by rw [hstored]
  have hdistinct : DistinctPending (storeCacheEntry s entry) := by
    rw [hstored]
    exact ⟨hpending.ips, hpending.room⟩
  unfold addIpMacCacheEntry
  dsimp only
  split
  case h_1 hnone =>
      have hnobody := recordedFor_of_none hnone
      rw [← hsame, hnobody, hhistory]
      exact ⟨(List.append_nil _).symm, rfl⟩
  case h_2 i hfind =>
      have htasks := recordedFor_of_some hdistinct hfind
      refine ⟨?_, ?_⟩
      · rw [← hsame, htasks, ← hhistory, notifyPending_eq]
      · apply List.flatMap_eq_nil_iff.mpr
        intro j _
        obtain ⟨hlist, hip⟩ := waitingTasks_notifyPending (storeCacheEntry s entry) i j
        rw [hlist, hip]
        split
        case isTrue hjip =>
            split
            case isTrue => rfl
            case isFalse hji =>
                by_contra hused
                obtain ⟨hiused, hiip⟩ := findPending_some hfind
                exact hji (hdistinct.ips j i hused hiused (hjip.trans hiip.symm))
        case isFalse => rfl

/-- **Nobody waits in vain, nobody is notified twice.** -/
theorem every_waiter_notified_once (hreach : Reachable step (boot selfNet) s) :
    (∀ task, Served s.arp task) ∧ DistinctPending s.arp ∧
      ∀ set entry queue env, s.arp.arpQueueSet = .inputQueue :: set →
        s.arp.arpInputQueue = entry :: queue →
        let swept := sweepPending { s.arp with arpQueueSet := set } env.sweepTick
        (arpTaskIteration s.arp env).history =
            swept.history ++ (recordedFor swept entry.ip).map .notifyGive ∧
          recordedFor (arpTaskIteration s.arp env) entry.ip = [] := by
  have hwaiters := (balanced_of_reachable hreach).waiters
  refine ⟨hwaiters.served, hwaiters.pending, ?_⟩
  intro set entry queue env hset hqueue
  have hselected : Waiters { s.arp with arpQueueSet := set } :=
    ⟨fun task => (hwaiters.served task).of_same rfl (fun _ => rfl) fun _ _ => rfl,
      ⟨hwaiters.pending.ips, hwaiters.pending.room⟩, hwaiters.once⟩
  have hswept := (waiters_sweepPending hselected env.sweepTick).1.pending
  rw [arpTaskIteration_entry hset hqueue env]
  dsimp only
  generalize sweepPending { s.arp with arpQueueSet := set } env.sweepTick = swept at hswept ⊢
  exact history_addIpMacCacheEntry (s := { swept with arpInputQueue := queue })
    ⟨hswept.ips, hswept.room⟩ entry

/-- A task that waits for an answer. -/
theorem waiter_of_request :
    ∃ s, Reachable step (boot ⟨⟨2, 0, 0, 0, 0, 1⟩, ⟨10, 0, 0, 1⟩⟩) s ∧
      eventsOf 7 s.arp.history = [.dequeued ⟨10, 0, 0, 2⟩] ∧ Served s.arp 7 := by
  have hrun : (run step (boot ⟨⟨2, 0, 0, 0, 0, 1⟩, ⟨10, 0, 0, 1⟩⟩)
      [.arpGetMacAddr 7 ⟨10, 0, 0, 2⟩,
        .arpTask ⟨0, 0, fun _ => 0, some fun _ => 0, .ok⟩]).any
      (fun s => eventsOf 7 s.arp.history == [.dequeued ⟨10, 0, 0, 2⟩]) = true := by
    decide +kernel
  obtain ⟨s, hs, hevents⟩ := run_any hrun
  have hreach : Reachable step (boot ⟨⟨2, 0, 0, 0, 0, 1⟩, ⟨10, 0, 0, 1⟩⟩) s := ⟨_, hs⟩
  exact ⟨s, hreach, beq_iff_eq.mp hevents, (every_waiter_notified_once hreach).1 7⟩

end NetStack.Arp
