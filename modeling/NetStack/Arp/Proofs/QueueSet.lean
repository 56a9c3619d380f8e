import NetStack.Lib.QueueSet
import NetStack.Arp.System
import NetStack.Arp.Proofs.Pending

/-!
# The queue set of `arp_task`

The callback of the driver and the tasks that ask for an address each post to one member, and an
iteration of `arp_task` takes one item for the handle that it selects, on every branch. The set
has room for its members together, so that it stays in sync with them.
-/

namespace NetStack.Arp
open NetStack.Lib NetStack.Eth NetStack.Utility

instance : Fintype ArpQueueHandle where
  elems := {.requestQueue, .inputQueue}
  complete h := by cases h <;> decide

/-- The queue set of `arp_task` and the items in its members. -/
def backlog (s : ArpState) : Backlog ArpQueueHandle where
  handles := s.arpQueueSet
  waiting
    | .requestQueue => s.arpRequestQueue.length
    | .inputQueue => s.arpInputQueue.length

/-- The capacities of the members. -/
def memberLength : ArpQueueHandle → Nat
  | .requestQueue => arpRequestQueueLength
  | .inputQueue => arpInputQueueLength

theorem sum_memberLength : ∑ h, memberLength h = arpQueueSetLength := by decide

variable {s s' : System} {t : ArpState}

/-- A backlog told by the three queues. -/
theorem backlog_eq {b : Backlog ArpQueueHandle} (hset : t.arpQueueSet = b.handles)
    (hrequest : t.arpRequestQueue.length = b.waiting .requestQueue)
    (hinput : t.arpInputQueue.length = b.waiting .inputQueue) : backlog t = b := by
  refine Backlog.ext hset (funext fun h => ?_)
  cases h with
  | requestQueue => exact hrequest
  | inputQueue => exact hinput

theorem SameContents.backlog {u : ArpState} (h : SameContents t u) :
    Arp.backlog u = Arp.backlog t :=
  backlog_eq h.set (congrArg List.length h.request) (congrArg List.length h.input)

/-- The branch for a selected handle takes one item out of its queue. -/
theorem backlog_handleSelected (handle : ArpQueueHandle) (env : ArpTaskEnv) :
    backlog (handleSelected t (some handle) env) =
      ⟨t.arpQueueSet, Function.update (backlog t).waiting handle
        ((backlog t).waiting handle - 1)⟩ := by
  unfold handleSelected
  cases handle with
  | requestQueue =>
      dsimp only
      split
      case h_1 hqueue => exact backlog_eq rfl (by simp [backlog, hqueue]) (by simp [backlog])
      case h_2 request queue hqueue =>
          rw [(sameContents_handleRequest _ request env).backlog]
          exact backlog_eq rfl (by simp [backlog, hqueue, ArpState.note])
            (by simp [backlog, ArpState.note])
  | inputQueue =>
      dsimp only
      split
      case h_1 hqueue => exact backlog_eq rfl (by simp [backlog]) (by simp [backlog, hqueue])
      case h_2 entry queue hqueue =>
          obtain ⟨hinput, hrequest, hset, -⟩ :=
            addIpMacCacheEntry_contents { t with arpInputQueue := queue } entry
          exact backlog_eq hset (by simp [hrequest, backlog]) (by simp [hinput, backlog, hqueue])

/-- The iteration takes out the oldest handle and one item of its queue. -/
theorem backlog_arpTaskIteration (t : ArpState) (env : ArpTaskEnv) :
    backlog (arpTaskIteration t env) = (backlog t).select := by
  unfold arpTaskIteration selectFromSet
  dsimp only
  split
  case h_1 hset =>
      rw [Backlog.select_nil hset]
      exact (sameContents_sweepPending t env.sweepTick).backlog
  case h_2 handle set hset =>
      have hswept := sameContents_sweepPending { t with arpQueueSet := set } env.sweepTick
      have hselect : (backlog t).select = ⟨set, Function.update (backlog t).waiting handle
          ((backlog t).waiting handle - 1)⟩ := Backlog.select_cons hset
      dsimp only
      rw [backlog_handleSelected, hswept.backlog, hswept.set, hselect]
      rfl

/-- One turn of the backlog: what it posts goes into `h`, which does not grow beyond its
    capacity. -/
structure Serves (h : ArpQueueHandle) (t u : ArpState) : Prop where
  turn : Backlog.Turn arpQueueSetLength h (backlog t) (backlog u)
  fits : (backlog u).waiting h ≤ max ((backlog t).waiting h) (memberLength h)

theorem Serves.of_eq {u : ArpState} {h : ArpQueueHandle} (hsame : backlog u = backlog t) :
    Serves h t u := by
  refine ⟨.inl ?_, ?_⟩ <;> rw [hsame]
  · exact .refl _
  · exact le_max_left _ _

/-- An item that has found room is queued with its handle. -/
theorem Serves.of_post {u : ArpState} {h : ArpQueueHandle}
    (hpost : backlog u = (backlog t).post arpQueueSetLength h)
    (hroom : (backlog t).waiting h < memberLength h) : Serves h t u := by
  refine ⟨.inl ?_, ?_⟩ <;> rw [hpost]
  · exact .single _
  · rw [Backlog.waiting_post_self]
    exact le_max_of_le_right hroom

theorem serves_beginRequest {request : ArpRequest}
    {packet : Option (Ipv4TransmitParams × Memory)}
    (h : beginRequest s request packet = some s') : Serves .requestQueue s.arp s'.arp := by
  unfold beginRequest at h
  split at h
  case isTrue => cases h
  case isFalse =>
      split at h
      case h_1 => cases h
      case h_2 queue hqueue =>
          obtain ⟨hroom, rfl⟩ := queueSend_eq_some_iff.mp hqueue
          obtain rfl := Option.some.inj h
          refine .of_post (backlog_eq rfl ?_ ?_) hroom
          · simp [backlog]
          · simp [backlog, Backlog.post]

theorem serves_arpInput (buffer : Memory) (len : BitVec 16) (env : ArpEnv) :
    Serves .inputQueue t { t with toArpGlobals := arpInput t.toArpGlobals buffer len env } := by
  unfold arpInput
  dsimp only
  split_ifs
  · exact .of_eq rfl
  · exact .of_eq rfl
  · exact .of_eq rfl
  · unfold queueArpEntry
    split
    case h_1 queue hqueue =>
        obtain ⟨hroom, rfl⟩ := queueSend_eq_some_iff.mp hqueue
        refine .of_post (backlog_eq rfl ?_ ?_) hroom
        · simp [backlog, Backlog.post]
        · simp [backlog]
    case h_2 => exact .of_eq rfl
  · exact .of_eq rfl
  · exact .of_eq rfl

/-- Each step is one turn of the backlog. -/
theorem step_serves {a : Action} (h : step s a = some s') :
    ∃ handle, Serves handle s.arp s'.arp := by
  cases a with
  | arpTask env =>
      obtain rfl := Option.some.inj h
      have hselect := backlog_arpTaskIteration s.arp env
      refine ⟨.inputQueue, .inr ?_, le_max_of_le_left ?_⟩ <;> dsimp only <;> rw [hselect]
      · exact .refl _
      · exact Backlog.waiting_select_le _
  | arpInput buffer len env =>
      obtain rfl := Option.some.inj h
      exact ⟨.inputQueue, serves_arpInput buffer len env⟩
  | arpGetMacAddr task ip => exact ⟨.requestQueue, serves_beginRequest h⟩
  | internalSendIpv4Packet task params malloc =>
      simp only [step] at h
      split at h
      · obtain rfl := Option.some.inj h
        exact ⟨.requestQueue, .of_eq rfl⟩
      · exact ⟨.requestQueue, serves_beginRequest h⟩
  | resume k eth =>
      have hsame : backlog s'.arp = backlog s.arp := by
        simp only [step, resumeCaller] at h
        split at h
        · cases h
        · split at h
          · cases h
          · split at h <;> exact Option.some.inj h ▸ rfl
      exact ⟨.requestQueue, .of_eq hsame⟩

/-- The queues of `arp_task` are within their capacities and its set is in sync with them. -/
theorem inSync_of_reachable {net : NetContext} (hreach : Reachable step (boot net) s) :
    (∀ h, (backlog s.arp).waiting h ≤ memberLength h) ∧ (backlog s.arp).InSync := by
  refine hreach.invariant
    (P := fun s => (∀ h, (backlog s.arp).waiting h ≤ memberLength h) ∧ (backlog s.arp).InSync)
    ⟨fun h => by cases h <;> exact Nat.zero_le _, fun h => by cases h <;> rfl⟩ ?_
  rintro s a s' ⟨hfits, hsync⟩ hstep
  obtain ⟨handle, hturn, hgrows⟩ := step_serves hstep
  exact hturn.keeps sum_memberLength.le hgrows hfits hsync

end NetStack.Arp
