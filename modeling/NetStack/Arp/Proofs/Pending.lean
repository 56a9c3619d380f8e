import NetStack.Arp.Worker

/-!
# What the operations of the worker do

Each operation of `arp.c` on the pending table and the cache as one equation or one case
distinction, for the proofs about runs.
-/

namespace NetStack.Arp
open NetStack.Lib NetStack.Eth

variable {s t : ArpState} {i : PendingIdx} {ip : Ipv4Addr}

/-- The notifications of a list of tasks, all at once. -/
theorem foldl_taskNotifyGive (s : ArpState) (tasks : List TaskHandle) :
    tasks.foldl taskNotifyGive s =
      { s with
        notificationValue := fun task => s.notificationValue task + tasks.count task
        history := s.history ++ tasks.map .notifyGive } := by
  induction tasks generalizing s with
  | nil => simp
  | cons task tasks ih =>
      rw [List.foldl_cons, ih]
      simp only [taskNotifyGive, List.map_cons, List.append_assoc, List.singleton_append]
      congr
      funext t
      by_cases ht : t = task
      · subst ht
        rw [Function.update_self, List.count_cons_self]
        omega
      · rw [Function.update_of_ne ht, List.count_cons_of_ne (Ne.symm ht)]

/-- An entry is freed and its tasks are notified; everything else stays. -/
theorem notifyPending_eq (s : ArpState) (i : PendingIdx) :
    notifyPending s i =
      { s with
        arpPendingTasks := Function.update s.arpPendingTasks i
          { s.arpPendingTasks i with waitingTasks := [] }
        notificationValue := fun task =>
          s.notificationValue task + (s.arpPendingTasks i).waitingTasks.count task
        history := s.history ++ (s.arpPendingTasks i).waitingTasks.map .notifyGive } := by
  rw [notifyPending, foldl_taskNotifyGive]
  rfl

/-- The entry that is found has waiting tasks and the address. -/
theorem findPending_some (h : findPending s ip = some i) :
    (s.arpPendingTasks i).waitingTasks ≠ [] ∧ (s.arpPendingTasks i).ip = ip := by
  have hi := firstIdx_some h
  simpa [List.length_eq_zero_iff] using hi

/-- An address that is not found has no waiting tasks. -/
theorem findPending_none (h : findPending s ip = none) (i : PendingIdx)
    (hi : (s.arpPendingTasks i).waitingTasks ≠ []) : (s.arpPendingTasks i).ip ≠ ip := by
  have hnone := firstIdx_eq_none_iff.mp h i
  simp only [Bool.and_eq_false_iff, bne_eq_false_iff_eq, beq_eq_false_iff_ne,
    List.length_eq_zero_iff] at hnone
  exact hnone.resolve_left hi

/-- `alloc_pending` fails when every entry is in use, and else prepares a free one. -/
theorem allocPending_some {now : BitVec 32} {allocated : ArpState}
    (h : allocPending s ip now = some (allocated, i)) :
    (s.arpPendingTasks i).waitingTasks = [] ∧
      allocated = s.setPending i
        { waitingTasks := [], expirationTick := now + arpTimeoutTicks, ip := ip } := by
  unfold allocPending at h
  split at h
  case h_1 => cases h
  case h_2 k hfree =>
      cases h
      have hk := firstIdx_some hfree
      exact ⟨by simpa [List.length_eq_zero_iff] using hk, rfl⟩

/-- A store into the cache leaves the table of the pending requests alone. -/
theorem storeCacheEntry_eq (s : ArpState) (entry : ArpEntry) :
    storeCacheEntry s entry =
      { s with
        ipMacCache := (storeCacheEntry s entry).ipMacCache
        ipMacCacheTop := (storeCacheEntry s entry).ipMacCacheTop } := by
  unfold storeCacheEntry
  split <;> rfl

/-- A stored entry is found. -/
theorem arpGetCachedMacAddr_store (s : ArpState) (entry : ArpEntry) :
    arpGetCachedMacAddr (storeCacheEntry s entry) entry.ip = .ok entry.mac := by
  unfold storeCacheEntry arpGetCachedMacAddr
  cases h : firstIdx fun i => entry.ip == (s.ipMacCache i).ip with
  | some k =>
      have hsame : ∀ i, (entry.ip ==
          ((s.setCache k { s.ipMacCache k with mac := entry.mac }).ipMacCache i).ip) =
          (entry.ip == (s.ipMacCache i).ip) := by
        intro i
        by_cases hik : i = k <;> simp [ArpState.setCache, hik]
      dsimp only
      rw [firstIdx_congr hsame, h]
      simp [ArpState.setCache]
  | none =>
      have htop : ∀ i, (entry.ip == ((s.setCache s.ipMacCacheTop entry).ipMacCache i).ip) =
          Function.update (fun i => entry.ip == (s.ipMacCache i).ip) s.ipMacCacheTop true i := by
        intro i
        by_cases hi : i = s.ipMacCacheTop <;> simp [ArpState.setCache, hi]
      dsimp only
      rw [firstIdx_congr htop, firstIdx_update_of_none h]
      simp [ArpState.setCache]

/-- Notifications do not change what a lookup returns. -/
theorem arpGetCachedMacAddr_add (s : ArpState) (entry : ArpEntry) :
    arpGetCachedMacAddr (addIpMacCacheEntry s entry) entry.ip = .ok entry.mac := by
  rw [← arpGetCachedMacAddr_store s entry]
  unfold addIpMacCacheEntry
  dsimp only
  split
  · rfl
  · rw [notifyPending_eq]
    rfl

/-- The queues, the set and the cache are the same. -/
structure SameContents (s t : ArpState) : Prop where
  input : t.arpInputQueue = s.arpInputQueue
  request : t.arpRequestQueue = s.arpRequestQueue
  set : t.arpQueueSet = s.arpQueueSet
  cache : t.ipMacCache = s.ipMacCache

theorem SameContents.refl (s : ArpState) : SameContents s s := ⟨rfl, rfl, rfl, rfl⟩

theorem SameContents.trans {u : ArpState} (h : SameContents s t) (h' : SameContents t u) :
    SameContents s u :=
  ⟨h'.input.trans h.input, h'.request.trans h.request, h'.set.trans h.set,
    h'.cache.trans h.cache⟩

theorem sameContents_notifyPending (s : ArpState) (i : PendingIdx) :
    SameContents s (notifyPending s i) := by
  rw [notifyPending_eq]
  exact ⟨rfl, rfl, rfl, rfl⟩

/-- The sweep takes nothing out of the queues. -/
theorem sameContents_sweepPending (s : ArpState) (now : BitVec 32) :
    SameContents s (sweepPending s now) := by
  unfold sweepPending
  apply forIdx_related SameContents.refl SameContents.trans
  intro i u
  unfold expirePending
  split
  · exact sameContents_notifyPending u i
  · exact .refl u

theorem sameContents_addWaitingTask (s : ArpState) (i : PendingIdx) (task : TaskHandle) :
    SameContents s (addWaitingTask s i task) := by
  unfold addWaitingTask
  dsimp only
  split <;> exact ⟨rfl, rfl, rfl, rfl⟩

theorem sameContents_handleRequest (s : ArpState) (request : ArpRequest) (env : ArpTaskEnv) :
    SameContents s (handleRequest s request env) := by
  unfold handleRequest
  split
  case h_1 i _ => exact sameContents_addWaitingTask s i request.task
  case h_2 =>
      split
      case h_1 => exact ⟨rfl, rfl, rfl, rfl⟩
      case h_2 allocated i halloc =>
          obtain ⟨-, rfl⟩ := allocPending_some halloc
          dsimp only
          split
          · exact ⟨rfl, rfl, rfl, rfl⟩
          · refine SameContents.trans ?_ (sameContents_addWaitingTask _ i request.task)
            exact ⟨rfl, rfl, rfl, rfl⟩

/-- A received entry changes nothing but the cache there. -/
theorem addIpMacCacheEntry_contents (s : ArpState) (entry : ArpEntry) :
    (addIpMacCacheEntry s entry).arpInputQueue = s.arpInputQueue ∧
      (addIpMacCacheEntry s entry).arpRequestQueue = s.arpRequestQueue ∧
      (addIpMacCacheEntry s entry).arpQueueSet = s.arpQueueSet ∧
      ∀ i, (addIpMacCacheEntry s entry).ipMacCache i = s.ipMacCache i ∨
        (addIpMacCacheEntry s entry).ipMacCache i = entry := by
  have hstored : ∀ i, (storeCacheEntry s entry).ipMacCache i = s.ipMacCache i ∨
      (storeCacheEntry s entry).ipMacCache i = entry := by
    intro i
    unfold storeCacheEntry
    split
    case h_1 k hk =>
        have hip : entry.ip = (s.ipMacCache k).ip := beq_iff_eq.mp (firstIdx_some hk)
        by_cases hi : i = k
        · subst hi
          simp [ArpState.setCache, ← hip]
        · simp [ArpState.setCache, hi]
    case h_2 =>
        by_cases hi : i = s.ipMacCacheTop
        · subst hi
          simp [ArpState.setCache]
        · simp [ArpState.setCache, hi]
  have hsame : SameContents (storeCacheEntry s entry) (addIpMacCacheEntry s entry) := by
    unfold addIpMacCacheEntry
    dsimp only
    split
    · exact .refl _
    · exact sameContents_notifyPending _ _
  have hqueues := storeCacheEntry_eq s entry
  refine ⟨hsame.input.trans (by rw [hqueues]), hsame.request.trans (by rw [hqueues]),
    hsame.set.trans (by rw [hqueues]), fun i => ?_⟩
  rw [hsame.cache]
  exact hstored i

/-- The iteration that takes a received entry out of its queue. -/
theorem arpTaskIteration_entry {set : List ArpQueueHandle} {entry : ArpEntry}
    {queue : List ArpEntry} (hset : s.arpQueueSet = .inputQueue :: set)
    (hqueue : s.arpInputQueue = entry :: queue) (env : ArpTaskEnv) :
    arpTaskIteration s env =
      addIpMacCacheEntry
        { sweepPending { s with arpQueueSet := set } env.sweepTick with arpInputQueue := queue }
        entry := by
  have hselect : selectFromSet s = ({ s with arpQueueSet := set }, some .inputQueue) := by
    rw [selectFromSet, hset]
  unfold arpTaskIteration
  rw [hselect]
  dsimp only
  have hswept := (sameContents_sweepPending { s with arpQueueSet := set } env.sweepTick).input
  generalize sweepPending { s with arpQueueSet := set } env.sweepTick = swept at hswept ⊢
  have hswept : swept.arpInputQueue = entry :: queue := hswept.trans hqueue
  unfold handleSelected
  dsimp only
  rw [hswept]

end NetStack.Arp
