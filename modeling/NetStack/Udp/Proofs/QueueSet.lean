import NetStack.Lib.QueueSet
import NetStack.Udp.System

/-!
# The queue set of `udp_task`

The set has room for 8 handles, and its members hold up to 12 items. A handle that finds the set
full is dropped, and no later step makes up for it: the set is in sync with its members exactly
if every item has been queued while the set had room.
-/

namespace NetStack.Udp
open NetStack.Lib

/-- The queue set of `udp_task` and the items in its members. -/
def backlog (g : Globals) : Backlog QueueHandle where
  handles := g.queueSet
  waiting
    | .portQueue => g.portQueue.length
    | .sendQueue => g.sendQueue.length

/-- If the step queues an item, then the set has room for its handle. -/
def HandleKept (s : System) : Action → Prop
  | .udpTask _ => True
  | .udpCreatePort port =>
      port.callback ≠ none → s.g.portQueue.length < portQueueLength →
        s.g.queueSet.length < queueSetLength
  | .udpSend _ => s.g.sendQueue.length < sendQueueLength → s.g.queueSet.length < queueSetLength

instance (s : System) (a : Action) : Decidable (HandleKept s a) :=
  match a with
  | .udpTask _ => inferInstanceAs (Decidable True)
  | .udpCreatePort port =>
      inferInstanceAs (Decidable (port.callback ≠ none → s.g.portQueue.length < portQueueLength →
        s.g.queueSet.length < queueSetLength))
  | .udpSend _ =>
      inferInstanceAs (Decidable (s.g.sendQueue.length < sendQueueLength →
        s.g.queueSet.length < queueSetLength))

variable {s s' : System} {g : Globals}

/-- A backlog is known by its handles and the lengths of the two queues. -/
theorem backlog_eq {b : Backlog QueueHandle} (hhandles : g.queueSet = b.handles)
    (hport : g.portQueue.length = b.waiting .portQueue)
    (hsend : g.sendQueue.length = b.waiting .sendQueue) : backlog g = b := by
  apply Backlog.ext hhandles
  funext k
  cases k with
  | portQueue => exact hport
  | sendQueue => exact hsend

/-- What a call does to the backlog: it queues one item, or nothing. -/
theorem backlog_udpCreatePort (g : Globals) (port : UdpPort) :
    backlog (udpCreatePort g port).1 =
      if port.callback ≠ none ∧ g.portQueue.length < portQueueLength then
        (backlog g).post queueSetLength .portQueue
      else backlog g := by
  unfold udpCreatePort
  by_cases hcallback : port.callback = none
  · simp [hcallback]
  · by_cases hroom : g.portQueue.length < portQueueLength
    · rw [if_neg hcallback, if_pos ⟨hcallback, hroom⟩, queueSend, if_pos hroom]
      exact backlog_eq rfl (by simp [Backlog.post, backlog]) rfl
    · rw [if_neg hcallback, if_neg (fun h => hroom h.2), queueSend, if_neg hroom]

theorem backlog_udpSend (g : Globals) (params : UdpTransmitParams) :
    backlog (udpSend g params).1 =
      if g.sendQueue.length < sendQueueLength then (backlog g).post queueSetLength .sendQueue
      else backlog g := by
  unfold udpSend queueSend
  by_cases hroom : g.sendQueue.length < sendQueueLength
  · rw [if_pos hroom, if_pos hroom]
    exact backlog_eq rfl rfl (by simp [Backlog.post, backlog])
  · rw [if_neg hroom, if_neg hroom]

theorem backlog_allocatePort (g : Globals) (port : UdpPort) :
    backlog (allocatePort g port).1 = backlog g := by
  unfold allocatePort
  split <;> rfl

/-- The iteration takes out the handle and one item of its queue. -/
theorem backlog_udpTaskIteration {env : SendEnv} (h : udpTaskIteration s env = some s') :
    backlog s'.g = (backlog s.g).select := by
  unfold udpTaskIteration at h
  split at h
  case h_1 => cases h
  case h_2 handle set hset =>
      have hselect : (backlog s.g).select = ⟨set, Function.update (backlog s.g).waiting handle
          ((backlog s.g).waiting handle - 1)⟩ := Backlog.select_cons hset
      rw [← Option.some.inj h, hselect]
      unfold handleSelected
      cases handle with
      | portQueue =>
          dsimp only
          split
          case h_1 hqueue => exact backlog_eq rfl (by simp [backlog, hqueue]) rfl
          case h_2 port queue hqueue =>
              dsimp only
              rw [backlog_allocatePort]
              exact backlog_eq rfl (by simp [backlog, hqueue]) rfl
      | sendQueue =>
          dsimp only
          split
          case h_1 hqueue => exact backlog_eq rfl rfl (by simp [backlog, hqueue])
          case h_2 params queue hqueue => exact backlog_eq rfl rfl (by simp [backlog, hqueue])

theorem covered_step {a : Action} (h : (backlog s.g).Covered) (hs' : step s a = some s') :
    (backlog s'.g).Covered := by
  cases a with
  | udpTask env =>
      rw [backlog_udpTaskIteration hs']
      exact h.select
  | udpCreatePort port =>
      obtain rfl := Option.some.inj hs'
      dsimp only
      rw [backlog_udpCreatePort]
      split
      · exact h.post
      · exact h
  | udpSend params =>
      obtain rfl := Option.some.inj hs'
      dsimp only
      rw [backlog_udpSend]
      split
      · exact h.post
      · exact h

/-- A step keeps the set in sync exactly if no handle is dropped. -/
theorem inSync_step_iff {a : Action} (h : (backlog s.g).Covered) (hs' : step s a = some s') :
    (backlog s'.g).InSync ↔ (backlog s.g).InSync ∧ HandleKept s a := by
  cases a with
  | udpTask env =>
      rw [backlog_udpTaskIteration hs', Backlog.inSync_select_iff h]
      exact (and_iff_left trivial).symm
  | udpCreatePort port =>
      obtain rfl := Option.some.inj hs'
      dsimp only [HandleKept]
      rw [backlog_udpCreatePort]
      split
      case isTrue hqueued =>
          rw [Backlog.inSync_post_iff h]
          simp only [hqueued.1, hqueued.2, ne_eq, not_false_eq_true, true_imp_iff]
          rfl
      case isFalse hqueued =>
          refine (and_iff_left ?_).symm
          exact fun hcallback hroom => absurd ⟨hcallback, hroom⟩ hqueued
  | udpSend params =>
      obtain rfl := Option.some.inj hs'
      dsimp only [HandleKept]
      rw [backlog_udpSend]
      split
      case isTrue hroom =>
          rw [Backlog.inSync_post_iff h]
          simp only [hroom, true_imp_iff]
          rfl
      case isFalse hroom => exact (and_iff_left fun hroom' => absurd hroom' hroom).symm

/-- After a run the set is in sync exactly if no step of it has dropped a handle. -/
theorem inSync_iff_guarded {net : NetContext} {as : List Action}
    (hrun : run step (boot net) as = some s) :
    (backlog s.g).InSync ↔ Guarded step HandleKept (boot net) as := by
  have hboot : (backlog (boot net).g).InSync := fun h => by cases h <;> rfl
  exact run_iff_guarded_of_invariant (I := fun s => (backlog s.g).Covered)
    (P := fun s => (backlog s.g).InSync) (fun _ _ _ h hs' => covered_step h hs')
    (fun _ _ _ h hs' => inSync_step_iff h hs') hboot.covered hboot hrun

end NetStack.Udp
