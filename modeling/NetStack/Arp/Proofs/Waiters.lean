import NetStack.Arp.Proofs.Pending
import NetStack.Arp.System

/-!
# Every waiter is notified once

A task that waits in `arp_get_mac_addr` is in one place: in the request queue, in one entry of the
pending table, or notified. The worker moves it from the first to the second or the third and from
the second to the third; only the task itself leaves the third.
-/

namespace NetStack.Arp
open NetStack.Lib NetStack.Eth

/-! ### What happens to one task -/

/-- The events that concern one task. -/
inductive TaskEvent where
  | dequeued (ip : Ipv4Addr)
  | notified
  deriving DecidableEq, Repr

def WorkerEvent.of (task : TaskHandle) : WorkerEvent → Option TaskEvent
  | .dequeued request => if request.task = task then some (.dequeued request.ip) else none
  | .notifyGive t => if t = task then some .notified else none

/-- The part of a history that concerns one task. -/
def eventsOf (task : TaskHandle) (history : List WorkerEvent) : List TaskEvent :=
  history.filterMap (WorkerEvent.of task)

/-- Requests that have been answered by one notification each before the next was dequeued. -/
def answered (ips : List Ipv4Addr) : List TaskEvent :=
  ips.flatMap fun ip => [.dequeued ip, .notified]

theorem answered_concat (ips : List Ipv4Addr) (ip : Ipv4Addr) :
    answered (ips ++ [ip]) = answered ips ++ [.dequeued ip] ++ [.notified] := by
  simp [answered]

theorem eventsOf_append (task : TaskHandle) (h h' : List WorkerEvent) :
    eventsOf task (h ++ h') = eventsOf task h ++ eventsOf task h' :=
  List.filterMap_append

theorem eventsOf_notify (task : TaskHandle) (tasks : List TaskHandle) :
    eventsOf task (tasks.map .notifyGive) = List.replicate (tasks.count task) .notified := by
  induction tasks with
  | nil => rfl
  | cons t tasks ih =>
      rw [List.map_cons, eventsOf, List.filterMap_cons, ← eventsOf, ih]
      by_cases ht : t = task
      · subst ht
        simp [WorkerEvent.of, List.replicate_succ]
      · simp [WorkerEvent.of, ht]

/-- The task is recorded once, in one entry, which is the one of the address. -/
def RecordedOnce (s : ArpState) (task : TaskHandle) (ip : Ipv4Addr) : Prop :=
  ∃ i, (s.arpPendingTasks i).ip = ip ∧ (s.arpPendingTasks i).waitingTasks.count task = 1 ∧
    ∀ j, j ≠ i → task ∉ (s.arpPendingTasks j).waitingTasks

/-- Every request that was dequeued from the task has been answered by one notification, except
    perhaps the last one, for which it is recorded then. -/
inductive Served (s : ArpState) (task : TaskHandle) : Prop where
  | answered (ips : List Ipv4Addr) (hevents : eventsOf task s.history = answered ips)
      (hrecorded : ∀ i, task ∉ (s.arpPendingTasks i).waitingTasks)
  | waiting (ips : List Ipv4Addr) (ip : Ipv4Addr)
      (hevents : eventsOf task s.history = Arp.answered ips ++ [.dequeued ip])
      (hrecorded : RecordedOnce s task ip)

/-- The entries in use are for different addresses and have room for their tasks. -/
structure DistinctPending (s : ArpState) : Prop where
  ips : ∀ i j, (s.arpPendingTasks i).waitingTasks ≠ [] → (s.arpPendingTasks j).waitingTasks ≠ [] →
    (s.arpPendingTasks i).ip = (s.arpPendingTasks j).ip → i = j
  room : ∀ i, (s.arpPendingTasks i).waitingTasks.length ≤ maxPendingPerIp

/-! ### Where a waiting task is -/

/-- How often a task is recorded in the pending table. -/
def recordedCount (s : ArpState) (task : TaskHandle) : Nat :=
  ∑ i, (s.arpPendingTasks i).waitingTasks.count task

/-- The requests of a task that are queued or recorded, and its notifications. -/
def owed (s : ArpState) (task : TaskHandle) : Nat :=
  (s.arpRequestQueue.map (·.task)).count task + recordedCount s task + s.notificationValue task

theorem recordedCount_setPending (s : ArpState) (i : PendingIdx) (p : ArpPending)
    (task : TaskHandle) :
    recordedCount (s.setPending i p) task + (s.arpPendingTasks i).waitingTasks.count task =
      recordedCount s task + p.waitingTasks.count task := by
  have hcounts : (fun k => ((s.setPending i p).arpPendingTasks k).waitingTasks.count task) =
      Function.update (fun k => (s.arpPendingTasks k).waitingTasks.count task) i
        (p.waitingTasks.count task) := by
    funext k
    by_cases hk : k = i
    · subst hk
      simp [ArpState.setPending]
    · simp [ArpState.setPending, hk]
  unfold recordedCount
  rw [hcounts]
  exact sum_update _ i _

theorem recordedCount_eq_zero_iff {s : ArpState} {task : TaskHandle} :
    recordedCount s task = 0 ↔ ∀ i, task ∉ (s.arpPendingTasks i).waitingTasks := by
  simp [recordedCount, List.count_eq_zero]

/-- What holds of the worker between its iterations. -/
structure Waiters (s : ArpState) : Prop where
  served : ∀ task, Served s task
  pending : DistinctPending s
  once : ∀ task, owed s task ≤ 1

variable {s t : ArpState} {task : TaskHandle} {i : PendingIdx} {ip : Ipv4Addr}

/-! ### An entry is released -/

theorem owed_notifyPending (s : ArpState) (i : PendingIdx) (task : TaskHandle) :
    owed (notifyPending s i) task = owed s task := by
  have hcount := recordedCount_setPending s i { s.arpPendingTasks i with waitingTasks := [] } task
  have hrecorded : recordedCount (notifyPending s i) task +
      (s.arpPendingTasks i).waitingTasks.count task = recordedCount s task := by
    rw [notifyPending_eq]
    exact hcount
  have hqueue : (notifyPending s i).arpRequestQueue = s.arpRequestQueue := by rw [notifyPending_eq]
  have hvalue : (notifyPending s i).notificationValue task =
      s.notificationValue task + (s.arpPendingTasks i).waitingTasks.count task := by
    rw [notifyPending_eq]
  rw [owed, owed, hqueue, hvalue]
  omega

/-- An entry after the release of entry `i`. -/
theorem waitingTasks_notifyPending (s : ArpState) (i j : PendingIdx) :
    ((notifyPending s i).arpPendingTasks j).waitingTasks =
        (if j = i then [] else (s.arpPendingTasks j).waitingTasks) ∧
      ((notifyPending s i).arpPendingTasks j).ip = (s.arpPendingTasks j).ip := by
  rw [notifyPending_eq]
  by_cases hj : j = i
  · subst hj
    simp
  · simp [hj]

theorem eventsOf_notifyPending (s : ArpState) (i : PendingIdx) (task : TaskHandle) :
    eventsOf task (notifyPending s i).history =
      eventsOf task s.history ++
        List.replicate ((s.arpPendingTasks i).waitingTasks.count task) .notified := by
  rw [notifyPending_eq, eventsOf_append, eventsOf_notify]

theorem served_notifyPending (h : Served s task) : Served (notifyPending s i) task := by
  have hevents' := eventsOf_notifyPending s i task
  have hmem : ∀ j, task ∈ ((notifyPending s i).arpPendingTasks j).waitingTasks →
      j ≠ i ∧ task ∈ (s.arpPendingTasks j).waitingTasks := by
    intro j hj
    rw [(waitingTasks_notifyPending s i j).1] at hj
    split at hj
    · cases hj
    · exact ⟨‹_›, hj⟩
  cases h with
  | answered ips hevents hrecorded =>
      rw [List.count_eq_zero.mpr (hrecorded i)] at hevents'
      exact .answered ips (by simpa [hevents] using hevents') fun j hj => hrecorded j (hmem j hj).2
  | waiting ips ip hevents hrecorded =>
      obtain ⟨k, hip, hcount, hother⟩ := hrecorded
      by_cases hki : k = i
      · -- the task is in the entry: this is its notification
        subst hki
        refine .answered (ips ++ [ip]) ?_ fun j hj => ?_
        · rw [hevents', hevents, hcount, answered_concat]
          rfl
        · obtain ⟨hne, hj⟩ := hmem j hj
          exact hother j hne hj
      · rw [List.count_eq_zero.mpr (hother i (Ne.symm hki))] at hevents'
        refine .waiting ips ip (by simpa [hevents] using hevents') ⟨k, ?_, ?_, fun j hne hj => ?_⟩
        · rw [(waitingTasks_notifyPending s i k).2, hip]
        · rw [(waitingTasks_notifyPending s i k).1, if_neg hki, hcount]
        · exact hother j hne (hmem j hj).2

theorem distinctPending_notifyPending (h : DistinctPending s) :
    DistinctPending (notifyPending s i) := by
  have hkeep : ∀ j, ((notifyPending s i).arpPendingTasks j).waitingTasks ≠ [] →
      (s.arpPendingTasks j).waitingTasks ≠ [] := by
    intro j hj hempty
    rw [(waitingTasks_notifyPending s i j).1, hempty] at hj
    simp at hj
  constructor
  · intro j k hj hk hip
    rw [(waitingTasks_notifyPending s i j).2, (waitingTasks_notifyPending s i k).2] at hip
    exact h.ips j k (hkeep j hj) (hkeep k hk) hip
  · intro j
    rw [(waitingTasks_notifyPending s i j).1]
    split
    · exact Nat.zero_le _
    · exact h.room j

theorem waiters_notifyPending (h : Waiters s) : Waiters (notifyPending s i) where
  served task := served_notifyPending (h.served task)
  pending := distinctPending_notifyPending h.pending
  once task := by
    rw [owed_notifyPending]
    exact h.once task

/-- The sweep moves tasks from the table to their notifications. -/
theorem waiters_sweepPending (h : Waiters s) (now : BitVec 32) :
    Waiters (sweepPending s now) ∧ ∀ task, owed (sweepPending s now) task = owed s task := by
  refine forIdx_invariant (P := fun t : ArpState => Waiters t ∧ ∀ task, owed t task = owed s task)
    ?_ ⟨h, fun _ => rfl⟩
  intro i t ⟨ht, howed⟩
  unfold expirePending
  split
  · exact ⟨waiters_notifyPending ht, fun task => (owed_notifyPending t i task).trans (howed task)⟩
  · exact ⟨ht, howed⟩

/-! ### A request is handled -/

/-- The states differ in entries that are free, and in nothing else that matters to a waiter. -/
structure Prepared (s t : ArpState) : Prop where
  waitingTasks : ∀ i, (t.arpPendingTasks i).waitingTasks = (s.arpPendingTasks i).waitingTasks
  ip : ∀ i, (s.arpPendingTasks i).waitingTasks ≠ [] →
    (t.arpPendingTasks i).ip = (s.arpPendingTasks i).ip
  queue : t.arpRequestQueue = s.arpRequestQueue
  value : t.notificationValue = s.notificationValue
  history : t.history = s.history

theorem Prepared.refl (s : ArpState) : Prepared s s :=
  ⟨fun _ => rfl, fun _ _ => rfl, rfl, rfl, rfl⟩

theorem Prepared.distinctPending (h : Prepared s t) (hs : DistinctPending s) :
    DistinctPending t where
  ips j k hj hk hip := by
    rw [h.waitingTasks] at hj hk
    rw [h.ip j hj, h.ip k hk] at hip
    exact hs.ips j k hj hk hip
  room j := by
    rw [h.waitingTasks]
    exact hs.room j

theorem Prepared.recordedCount (h : Prepared s t) (task : TaskHandle) :
    recordedCount t task = Arp.recordedCount s task := by
  simp only [Arp.recordedCount, h.waitingTasks]

theorem Prepared.owed (h : Prepared s t) (task : TaskHandle) : owed t task = Arp.owed s task := by
  rw [Arp.owed, Arp.owed, h.recordedCount, h.queue, h.value]

/-- The task of a request is notified or recorded. -/
inductive Handled (s : ArpState) (request : ArpRequest) (t : ArpState) : Prop where
  | notified (u : ArpState) (hprepared : Prepared s u) (ht : t = taskNotifyGive u request.task)
  | recorded (u : ArpState) (hprepared : Prepared s u) (i : PendingIdx)
      (ht : t = u.setPending i
        { u.arpPendingTasks i with
          waitingTasks := (u.arpPendingTasks i).waitingTasks ++ [request.task] })
      (hip : (u.arpPendingTasks i).ip = request.ip)
      (hroom : (u.arpPendingTasks i).waitingTasks.length < maxPendingPerIp)
      (hother : ∀ j, j ≠ i → (u.arpPendingTasks j).waitingTasks ≠ [] →
        (u.arpPendingTasks j).ip ≠ request.ip)

theorem handled_addWaitingTask {request : ArpRequest} {u : ArpState} (hprepared : Prepared s u)
    (hip : (u.arpPendingTasks i).ip = request.ip)
    (hother : ∀ j, j ≠ i → (u.arpPendingTasks j).waitingTasks ≠ [] →
      (u.arpPendingTasks j).ip ≠ request.ip) :
    Handled s request (addWaitingTask u i request.task) := by
  unfold addWaitingTask
  dsimp only
  split
  case isTrue => exact .notified u hprepared rfl
  case isFalse hroom => exact .recorded u hprepared i rfl hip (Nat.lt_of_not_le hroom) hother

/-- Every branch of the handling of a request notifies its task or records it. -/
theorem handled_handleRequest (h : DistinctPending s) (request : ArpRequest) (env : ArpTaskEnv) :
    Handled s request (handleRequest s request env) := by
  unfold handleRequest
  split
  case h_1 i hfind =>
      -- somebody waits for the address already
      obtain ⟨hused, hip⟩ := findPending_some hfind
      apply handled_addWaitingTask (.refl s) hip
      intro j hj hjused hjip
      exact hj (h.ips j i hjused hused (hjip.trans hip.symm))
  case h_2 hfind =>
      have hnone := findPending_none hfind
      split
      case h_1 => exact .notified s (.refl s) rfl
      case h_2 allocated i halloc =>
          obtain ⟨hfree, rfl⟩ := allocPending_some halloc
          dsimp only
          generalize hsent : ({ s.setPending i ⟨env.allocTick + arpTimeoutTicks, [], request.ip⟩ with
            toArpGlobals := (sendArpRequest _ request.ip env.request).1 } : ArpState) = sent
          have hentry : sent.arpPendingTasks =
              Function.update s.arpPendingTasks i ⟨env.allocTick + arpTimeoutTicks, [], request.ip⟩ := by
            rw [← hsent]
            rfl
          have hprepared : Prepared s sent := by
            refine ⟨fun j => ?_, fun j hj => ?_, by rw [← hsent]; rfl, by rw [← hsent]; rfl,
              by rw [← hsent]; rfl⟩
            · by_cases hji : j = i
              · subst hji
                simp [hentry, hfree]
              · simp [hentry, hji]
            · have hji : j ≠ i := fun hji => hj (hji ▸ hfree)
              simp [hentry, hji]
          split
          case isTrue => exact .notified sent hprepared rfl
          case isFalse =>
              apply handled_addWaitingTask hprepared (by simp [hentry])
              intro j hj hjused
              rw [hprepared.waitingTasks] at hjused
              rw [hprepared.ip j hjused]
              exact hnone j hjused

/-- A task to which nothing has happened, and whose entries have stayed. -/
theorem Served.of_same (h : Served s task)
    (hevents : eventsOf task t.history = eventsOf task s.history)
    (hcount : ∀ i, (t.arpPendingTasks i).waitingTasks.count task =
      (s.arpPendingTasks i).waitingTasks.count task)
    (hip : ∀ i, task ∈ (s.arpPendingTasks i).waitingTasks →
      (t.arpPendingTasks i).ip = (s.arpPendingTasks i).ip) : Served t task := by
  have hmem : ∀ i, task ∈ (t.arpPendingTasks i).waitingTasks ↔
      task ∈ (s.arpPendingTasks i).waitingTasks := fun i => by
    rw [← List.count_pos_iff, ← List.count_pos_iff, hcount]
  cases h with
  | answered ips hs hrecorded =>
      exact .answered ips (hevents.trans hs) fun i hi => hrecorded i ((hmem i).mp hi)
  | waiting ips ip hs hrecorded =>
      obtain ⟨k, hk, hone, hother⟩ := hrecorded
      have hin : task ∈ (s.arpPendingTasks k).waitingTasks :=
        List.count_pos_iff.mp (by rw [hone]; exact Nat.one_pos)
      refine .waiting ips ip (hevents.trans hs) ⟨k, ?_, ?_, fun j hj hin => ?_⟩
      · rw [hip k hin, hk]
      · rw [hcount, hone]
      · exact hother j hj ((hmem j).mp hin)

/-- A task with an unanswered request that is not recorded has all its earlier ones answered. -/
theorem Served.answers (h : Served s task)
    (hrecorded : ∀ i, task ∉ (s.arpPendingTasks i).waitingTasks) :
    ∃ ips, eventsOf task s.history = Arp.answered ips := by
  cases h with
  | answered ips hs => exact ⟨ips, hs⟩
  | waiting ips ip hs hrecorded' =>
      obtain ⟨k, -, hone, -⟩ := hrecorded'
      exact absurd (List.count_pos_iff.mp (by rw [hone]; exact Nat.one_pos)) (hrecorded k)

/-- `xQueueReceive` of the oldest request. -/
def dequeueRequest (s : ArpState) (request : ArpRequest) (queue : List ArpRequest) : ArpState :=
  { s with arpRequestQueue := queue }.note (.dequeued request)

variable {request : ArpRequest} {queue : List ArpRequest}

theorem eventsOf_dequeueRequest (s : ArpState) (task : TaskHandle) :
    eventsOf task (dequeueRequest s request queue).history =
      eventsOf task s.history ++
        if request.task = task then [.dequeued request.ip] else [] := by
  rw [dequeueRequest, ArpState.note, eventsOf_append]
  congr 1
  by_cases ht : request.task = task <;> simp [eventsOf, WorkerEvent.of, ht]

theorem owed_dequeueRequest (hqueue : s.arpRequestQueue = request :: queue) (task : TaskHandle) :
    owed (dequeueRequest s request queue) task + (if request.task = task then 1 else 0) =
      owed s task := by
  have hrecorded : recordedCount (dequeueRequest s request queue) task = recordedCount s task := rfl
  have hvalue : (dequeueRequest s request queue).notificationValue = s.notificationValue := rfl
  have hrest : (dequeueRequest s request queue).arpRequestQueue = queue := rfl
  rw [owed, owed, hrecorded, hvalue, hrest, hqueue, List.map_cons, List.count_cons]
  simp only [beq_iff_eq]
  omega

theorem owed_taskNotifyGive (s : ArpState) (task' task : TaskHandle) :
    owed (taskNotifyGive s task') task = owed s task + if task' = task then 1 else 0 := by
  have hrecorded : recordedCount (taskNotifyGive s task') task = recordedCount s task := rfl
  rw [owed, owed, hrecorded, taskNotifyGive]
  dsimp only
  by_cases ht : task' = task
  · subst ht
    rw [Function.update_self, if_pos rfl]
    omega
  · rw [Function.update_of_ne (Ne.symm ht), if_neg ht]
    rfl

/-- The task of a dequeued request has been in the queue and nowhere else, and all its earlier
    requests have been answered. -/
theorem dequeued_open (h : Waiters s) (hqueue : s.arpRequestQueue = request :: queue) :
    (∀ i, request.task ∉ (s.arpPendingTasks i).waitingTasks) ∧
      ∃ ips, eventsOf request.task (dequeueRequest s request queue).history =
        answered ips ++ [.dequeued request.ip] := by
  have hnone : ∀ i, request.task ∉ (s.arpPendingTasks i).waitingTasks := by
    have honce := h.once request.task
    rw [owed, hqueue, List.map_cons, List.count_cons_self] at honce
    exact recordedCount_eq_zero_iff.mp (by omega)
  obtain ⟨ips, hips⟩ := (h.served request.task).answers hnone
  exact ⟨hnone, ips, by rw [eventsOf_dequeueRequest, hips, if_pos rfl]⟩

theorem distinctPending_dequeueRequest (h : DistinctPending s) :
    DistinctPending (dequeueRequest s request queue) :=
  ⟨h.ips, h.room⟩

/-- A dequeued request whose task is notified at once. -/
theorem waiters_notified (h : Waiters s) (hqueue : s.arpRequestQueue = request :: queue)
    (hprepared : Prepared (dequeueRequest s request queue) t) :
    Waiters (taskNotifyGive t request.task) ∧
      ∀ task, owed (taskNotifyGive t request.task) task = owed s task := by
  obtain ⟨hnone, ips, hopen⟩ := dequeued_open h hqueue
  have howed : ∀ task, owed (taskNotifyGive t request.task) task = owed s task := by
    intro task
    rw [owed_taskNotifyGive, hprepared.owed]
    exact owed_dequeueRequest hqueue task
  have hevents : ∀ task, eventsOf task (taskNotifyGive t request.task).history =
      eventsOf task (dequeueRequest s request queue).history ++
        eventsOf task [.notifyGive request.task] := by
    intro task
    rw [taskNotifyGive, eventsOf_append, hprepared.history]
  have hpending := hprepared.distinctPending (distinctPending_dequeueRequest h.pending)
  refine ⟨⟨fun task => ?_, ⟨hpending.ips, hpending.room⟩, fun task => ?_⟩, howed⟩
  · by_cases htask : request.task = task
    · subst htask
      refine .answered (ips ++ [request.ip]) ?_ fun i hi => ?_
      · rw [hevents, hopen, answered_concat]
        simp [eventsOf, WorkerEvent.of]
      · exact hnone i (hprepared.waitingTasks i ▸ hi)
    · refine (h.served task).of_same ?_ (fun i => ?_) fun i hi => ?_
      · rw [hevents, eventsOf_dequeueRequest, if_neg htask]
        simp [eventsOf, WorkerEvent.of, htask]
      · exact congrArg (List.count task) (hprepared.waitingTasks i)
      · exact hprepared.ip i (List.ne_nil_of_mem hi)
  · rw [howed]
    exact h.once task

/-- The task of a request is added to entry `i`. -/
def recordTask (s : ArpState) (i : PendingIdx) (task : TaskHandle) : ArpState :=
  s.setPending i
    { s.arpPendingTasks i with waitingTasks := (s.arpPendingTasks i).waitingTasks ++ [task] }

theorem recordTask_entry (s : ArpState) (i j : PendingIdx) (task : TaskHandle) :
    ((recordTask s i task).arpPendingTasks j).waitingTasks =
        (s.arpPendingTasks j).waitingTasks ++ (if j = i then [task] else []) ∧
      ((recordTask s i task).arpPendingTasks j).ip = (s.arpPendingTasks j).ip := by
  by_cases hj : j = i
  · subst hj
    simp [recordTask, ArpState.setPending]
  · simp [recordTask, ArpState.setPending, hj]

theorem owed_recordTask (s : ArpState) (i : PendingIdx) (task' task : TaskHandle) :
    owed (recordTask s i task') task = owed s task + if task' = task then 1 else 0 := by
  have hcount : recordedCount (recordTask s i task') task +
      (s.arpPendingTasks i).waitingTasks.count task =
      recordedCount s task + ((s.arpPendingTasks i).waitingTasks ++ [task']).count task :=
    recordedCount_setPending s i _ task
  have hqueue : (recordTask s i task').arpRequestQueue = s.arpRequestQueue := rfl
  have hvalue : (recordTask s i task').notificationValue = s.notificationValue := rfl
  rw [List.count_append, List.count_singleton] at hcount
  simp only [beq_iff_eq] at hcount
  rw [owed, owed, hqueue, hvalue]
  omega

/-- A dequeued request whose task is recorded. -/
theorem waiters_recorded (h : Waiters s) (hqueue : s.arpRequestQueue = request :: queue)
    (hprepared : Prepared (dequeueRequest s request queue) t)
    (hip : (t.arpPendingTasks i).ip = request.ip)
    (hroom : (t.arpPendingTasks i).waitingTasks.length < maxPendingPerIp)
    (hother : ∀ j, j ≠ i → (t.arpPendingTasks j).waitingTasks ≠ [] →
      (t.arpPendingTasks j).ip ≠ request.ip) :
    Waiters (recordTask t i request.task) ∧
      ∀ task, owed (recordTask t i request.task) task = owed s task := by
  obtain ⟨hnone, ips, hopen⟩ := dequeued_open h hqueue
  have hnone : ∀ j, request.task ∉ (t.arpPendingTasks j).waitingTasks := by
    intro j
    rw [hprepared.waitingTasks]
    exact hnone j
  have howed : ∀ task, owed (recordTask t i request.task) task = owed s task := by
    intro task
    rw [owed_recordTask, hprepared.owed]
    exact owed_dequeueRequest hqueue task
  have hpending := hprepared.distinctPending (distinctPending_dequeueRequest h.pending)
  have hused : ∀ j, j ≠ i → ((recordTask t i request.task).arpPendingTasks j).waitingTasks ≠ [] →
      ((recordTask t i request.task).arpPendingTasks j).ip ≠ request.ip := by
    intro j hj hused
    rw [(recordTask_entry t i j _).1, if_neg hj, List.append_nil] at hused
    rw [(recordTask_entry t i j _).2]
    exact hother j hj hused
  refine ⟨⟨fun task => ?_, ⟨fun j k hj hk hjk => ?_, fun j => ?_⟩, fun task => ?_⟩, howed⟩
  · by_cases htask : request.task = task
    · subst htask
      refine .waiting ips request.ip ?_ ⟨i, ?_, ?_, fun j hj hin => ?_⟩
      · exact (congrArg (eventsOf request.task) hprepared.history).trans hopen
      · rw [(recordTask_entry t i i _).2, hip]
      · rw [(recordTask_entry t i i _).1, if_pos rfl, List.count_append,
          List.count_eq_zero.mpr (hnone i), List.count_singleton_self]
      · rw [(recordTask_entry t i j _).1, if_neg hj, List.append_nil] at hin
        exact hnone j hin
    · refine (h.served task).of_same ?_ (fun j => ?_) fun j hin => ?_
      · have hhistory := congrArg (eventsOf task) hprepared.history
        rw [eventsOf_dequeueRequest, if_neg htask, List.append_nil] at hhistory
        exact hhistory
      · rw [(recordTask_entry t i j _).1, List.count_append, hprepared.waitingTasks]
        by_cases hj : j = i <;> simp [hj, dequeueRequest, ArpState.note, htask]
      · rw [(recordTask_entry t i j _).2]
        exact hprepared.ip j (List.ne_nil_of_mem hin)
  · by_cases hji : j = i
    · by_cases hki : k = i
      · rw [hji, hki]
      · rw [hji, (recordTask_entry t i i _).2, hip] at hjk
        exact absurd hjk.symm (hused k hki hk)
    · by_cases hki : k = i
      · rw [hki, (recordTask_entry t i i _).2, hip] at hjk
        exact absurd hjk (hused j hji hj)
      · rw [(recordTask_entry t i j _).1, if_neg hji, List.append_nil] at hj
        rw [(recordTask_entry t i k _).1, if_neg hki, List.append_nil] at hk
        rw [(recordTask_entry t i j _).2, (recordTask_entry t i k _).2] at hjk
        exact hpending.ips j k hj hk hjk
  · rw [(recordTask_entry t i j _).1, List.length_append]
    split
    case isTrue hj => exact hj ▸ hroom
    case isFalse => exact hpending.room j
  · rw [howed]
    exact h.once task

theorem waiters_handled (h : Waiters s) (hqueue : s.arpRequestQueue = request :: queue)
    (hhandled : Handled (dequeueRequest s request queue) request t) :
    Waiters t ∧ ∀ task, owed t task = owed s task := by
  cases hhandled with
  | notified u hprepared ht => exact ht ▸ waiters_notified h hqueue hprepared
  | recorded u hprepared i ht hip hroom hother =>
      exact ht ▸ waiters_recorded h hqueue hprepared hip hroom hother

/-! ### The iterations of the worker -/

theorem waiters_storeCacheEntry (h : Waiters s) (entry : ArpEntry) :
    Waiters (storeCacheEntry s entry) ∧
      ∀ task, owed (storeCacheEntry s entry) task = owed s task := by
  rw [storeCacheEntry_eq]
  refine ⟨⟨fun task => ?_, ⟨h.pending.ips, h.pending.room⟩, h.once⟩, fun _ => rfl⟩
  exact (h.served task).of_same rfl (fun _ => rfl) fun _ _ => rfl

theorem waiters_addIpMacCacheEntry (h : Waiters s) (entry : ArpEntry) :
    Waiters (addIpMacCacheEntry s entry) ∧
      ∀ task, owed (addIpMacCacheEntry s entry) task = owed s task := by
  obtain ⟨hstored, howed⟩ := waiters_storeCacheEntry h entry
  unfold addIpMacCacheEntry
  dsimp only
  split
  · exact ⟨hstored, howed⟩
  · exact ⟨waiters_notifyPending hstored, fun task =>
      (owed_notifyPending _ _ task).trans (howed task)⟩

/-- One iteration of the worker loses no waiter and notifies none twice. -/
theorem waiters_arpTaskIteration (h : Waiters s) (env : ArpTaskEnv) :
    Waiters (arpTaskIteration s env) ∧ ∀ task, owed (arpTaskIteration s env) task = owed s task := by
  have hselected : Waiters (selectFromSet s).1 ∧ ∀ task, owed (selectFromSet s).1 task = owed s task := by
    unfold selectFromSet
    split
    · exact ⟨h, fun _ => rfl⟩
    · refine ⟨⟨fun task => ?_, ⟨h.pending.ips, h.pending.room⟩, h.once⟩, fun _ => rfl⟩
      exact (h.served task).of_same rfl (fun _ => rfl) fun _ _ => rfl
  obtain ⟨hswept, howed⟩ := waiters_sweepPending hselected.1 env.sweepTick
  have howed : ∀ task, owed (sweepPending (selectFromSet s).1 env.sweepTick) task = owed s task :=
    fun task => (howed task).trans (hselected.2 task)
  unfold arpTaskIteration
  dsimp only
  generalize sweepPending (selectFromSet s).1 env.sweepTick = swept at hswept howed ⊢
  unfold handleSelected
  split
  · split
    case h_1 => exact ⟨hswept, howed⟩
    case h_2 request queue hqueue =>
        obtain ⟨hhandled, hsame⟩ := waiters_handled hswept hqueue
          (handled_handleRequest (distinctPending_dequeueRequest hswept.pending) request env)
        exact ⟨hhandled, fun task => (hsame task).trans (howed task)⟩
  · split
    case h_1 => exact ⟨hswept, howed⟩
    case h_2 entry queue hqueue =>
        have hreceived : Waiters { swept with arpInputQueue := queue } :=
          ⟨fun task => (hswept.served task).of_same rfl (fun _ => rfl) fun _ _ => rfl,
            ⟨hswept.pending.ips, hswept.pending.room⟩, hswept.once⟩
        obtain ⟨hadded, hsame⟩ := waiters_addIpMacCacheEntry hreceived entry
        exact ⟨hadded, fun task => (hsame task).trans (howed task)⟩
  · exact ⟨hswept, howed⟩

end NetStack.Arp
