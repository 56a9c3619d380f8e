import NetStack.Lib.Service
import NetStack.Udp.Proofs.QueueSet

/-!
# What `udp_task` takes up, and when

An iteration of `udp_task` takes up the oldest item of the queue whose handle is the oldest in the set,
and the calls of the public API put items in behind the others.
-/

namespace NetStack.Udp
open NetStack.Lib

/-- What the members of the queue set hold. -/
inductive UdpItem where
  | port (port : UdpPort)
  | send (params : UdpTransmitParams)

/-- The queue set of `udp_task` and the items in its members. -/
def stock (g : Globals) : Stock QueueHandle UdpItem where
  handles := g.queueSet
  items
    | .portQueue => g.portQueue.map .port
    | .sendQueue => g.sendQueue.map .send

/-- An iteration of `udp_task`. -/
def Action.isUdpTask : Action → Bool
  | .udpTask _ => true
  | _ => false

variable {s s' : System} {g : Globals} {a : Action}

/-- A stock told by the three queues. -/
theorem stock_eq {u : Stock QueueHandle UdpItem} (hset : g.queueSet = u.handles)
    (hport : g.portQueue.map .port = u.items .portQueue)
    (hsend : g.sendQueue.map .send = u.items .sendQueue) : stock g = u := by
  refine Stock.ext hset (funext fun h => ?_)
  cases h with
  | portQueue => exact hport
  | sendQueue => exact hsend

theorem backlog_stock (g : Globals) : (stock g).backlog = backlog g :=
  (backlog_eq rfl (by simp [Stock.backlog, stock]) (by simp [Stock.backlog, stock])).symm

theorem stock_allocatePort (g : Globals) (port : UdpPort) :
    stock (allocatePort g port).1 = stock g := by
  unfold allocatePort
  split <;> rfl

/-- An iteration is a selection, whatever it does with the item. -/
theorem stock_udpTaskIteration {env : SendEnv} (h : udpTaskIteration s env = some s') :
    stock s'.g = (stock s.g).select := by
  unfold udpTaskIteration at h
  split at h
  case h_1 => cases h
  case h_2 handle set hset =>
      have hselect : (stock s.g).select = ⟨set, Function.update (stock s.g).items handle
          ((stock s.g).items handle).tail⟩ := Stock.select_cons hset
      rw [← Option.some.inj h, hselect]
      unfold handleSelected
      cases handle with
      | portQueue =>
          dsimp only
          split
          case h_1 hqueue => exact stock_eq rfl (by simp [stock, hqueue]) rfl
          case h_2 port queue hqueue =>
              dsimp only
              rw [stock_allocatePort]
              exact stock_eq rfl (by simp [stock, hqueue]) rfl
      | sendQueue =>
          dsimp only
          split
          case h_1 hqueue => exact stock_eq rfl rfl (by simp [stock, hqueue])
          case h_2 params queue hqueue => exact stock_eq rfl rfl (by simp [stock, hqueue])

/-- The task waits only while the set is empty. -/
theorem isSome_udpTaskIteration {env : SendEnv} (s : System) (h : (stock s.g).handles ≠ []) :
    (udpTaskIteration s env).isSome = true := by
  unfold udpTaskIteration
  split
  case h_1 hset => exact absurd hset h
  case h_2 => rfl

/-- Behind every handle in the set there is an item. -/
theorem covered_of_reachable {net : NetContext} (hreach : Reachable step (boot net) s) :
    (backlog s.g).Covered :=
  hreach.invariant (P := fun s => (backlog s.g).Covered) (fun h => by cases h <;> exact le_rfl)
    fun _ _ _ h hs' => covered_step h hs'

theorem grows_udpCreatePort (g : Globals) (port : UdpPort) :
    Stock.Grows (stock g) (stock (udpCreatePort g port).1) := by
  unfold udpCreatePort
  split
  case isTrue => exact .refl _
  case isFalse =>
      split
      case h_1 queue hqueue =>
          obtain ⟨-, rfl⟩ := queueSend_eq_some_iff.mp hqueue
          refine ⟨Stock.setPost_grows _ _ _, fun handle => ?_⟩
          cases handle with
          | portQueue => exact (List.prefix_append _ _).map _
          | sendQueue => exact List.prefix_rfl
      case h_2 => exact .refl _

theorem grows_udpSend (g : Globals) (params : UdpTransmitParams) :
    Stock.Grows (stock g) (stock (udpSend g params).1) := by
  unfold udpSend
  split
  case h_1 queue hqueue =>
      obtain ⟨-, rfl⟩ := queueSend_eq_some_iff.mp hqueue
      refine ⟨Stock.setPost_grows _ _ _, fun handle => ?_⟩
      cases handle with
      | portQueue => exact List.prefix_rfl
      | sendQueue => exact (List.prefix_append _ _).map _
  case h_2 => exact .refl _

/-- An iteration of `udp_task` takes the selected item out, and nothing else takes anything out. -/
theorem isService : IsService step Action.isUdpTask (fun s => stock s.g) := by
  intro s a s' h
  cases a with
  | udpTask env =>
      rw [Action.isUdpTask, if_pos rfl, ← stock_udpTaskIteration h]
      exact .refl _
  | udpCreatePort port =>
      obtain rfl := Option.some.inj h
      exact grows_udpCreatePort s.g port
  | udpSend params =>
      obtain rfl := Option.some.inj h
      exact grows_udpSend s.g params

end NetStack.Udp
