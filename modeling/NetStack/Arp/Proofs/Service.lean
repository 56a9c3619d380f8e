import NetStack.Arp.Proofs.Calls
import NetStack.Arp.Proofs.QueueSet
import NetStack.Lib.Service

/-!
# What `arp_task` takes up, and when

An iteration of `arp_task` takes up the oldest item of the queue whose handle is the oldest in the set,
and all other steps put items in behind. Requests and received entries are taken up in bounded time.
-/

namespace NetStack.Arp
open NetStack.Lib NetStack.Eth

/-- What the members of the queue set hold. -/
inductive ArpItem where
  | request (request : ArpRequest)
  | entry (entry : ArpEntry)

/-- The queue set of `arp_task` and the items in its members. -/
def stock (s : ArpState) : Stock ArpQueueHandle ArpItem where
  handles := s.arpQueueSet
  items
    | .requestQueue => s.arpRequestQueue.map .request
    | .inputQueue => s.arpInputQueue.map .entry

/-- An iteration of `arp_task`. -/
def Action.isArpTask : Action → Bool
  | .arpTask _ => true
  | _ => false

variable {s s' : System} {t : ArpState} {a : Action}

/-- A stock told by the three queues. -/
theorem stock_eq {u : Stock ArpQueueHandle ArpItem} (hset : t.arpQueueSet = u.handles)
    (hrequest : t.arpRequestQueue.map .request = u.items .requestQueue)
    (hinput : t.arpInputQueue.map .entry = u.items .inputQueue) : stock t = u := by
  refine Stock.ext hset (funext fun h => ?_)
  cases h with
  | requestQueue => exact hrequest
  | inputQueue => exact hinput

theorem backlog_stock (s : ArpState) : (stock s).backlog = backlog s :=
  (backlog_eq rfl (by simp [Stock.backlog, stock]) (by simp [Stock.backlog, stock])).symm

theorem SameContents.stock {u : ArpState} (h : SameContents t u) : Arp.stock u = Arp.stock t :=
  stock_eq h.set (congrArg _ h.request) (congrArg _ h.input)

/-- The branch for a selected handle takes up the oldest item of its queue. -/
theorem stock_handleSelected (handle : ArpQueueHandle) (env : ArpTaskEnv) :
    stock (handleSelected t (some handle) env) =
      ⟨t.arpQueueSet, Function.update (stock t).items handle ((stock t).items handle).tail⟩ := by
  unfold handleSelected
  cases handle with
  | requestQueue =>
      dsimp only
      split
      case h_1 hqueue => exact stock_eq rfl (by simp [stock, hqueue]) (by simp [stock])
      case h_2 request queue hqueue =>
          rw [(sameContents_handleRequest _ request env).stock]
          exact stock_eq rfl (by simp [stock, hqueue, ArpState.note]) (by simp [stock, ArpState.note])
  | inputQueue =>
      dsimp only
      split
      case h_1 hqueue => exact stock_eq rfl (by simp [stock]) (by simp [stock, hqueue])
      case h_2 entry queue hqueue =>
          obtain ⟨hinput, hrequest, hset, -⟩ :=
            addIpMacCacheEntry_contents { t with arpInputQueue := queue } entry
          exact stock_eq hset (by simp [hrequest, stock]) (by simp [hinput, stock, hqueue])

/-- An iteration is a selection, whatever it does with the item. -/
theorem stock_arpTaskIteration (t : ArpState) (env : ArpTaskEnv) :
    stock (arpTaskIteration t env) = (stock t).select := by
  unfold arpTaskIteration selectFromSet
  dsimp only
  split
  case h_1 hset =>
      rw [Stock.select_nil hset]
      exact (sameContents_sweepPending t env.sweepTick).stock
  case h_2 handle set hset =>
      have hswept := sameContents_sweepPending { t with arpQueueSet := set } env.sweepTick
      have hselect : (stock t).select = ⟨set, Function.update (stock t).items handle
          ((stock t).items handle).tail⟩ := Stock.select_cons hset
      dsimp only
      rw [stock_handleSelected, hswept.stock, hswept.set, hselect]
      rfl

theorem grows_beginRequest {request : ArpRequest} {packet : Option (Ipv4TransmitParams × Memory)}
    (h : beginRequest s request packet = some s') : Stock.Grows (stock s.arp) (stock s'.arp) := by
  obtain ⟨-, -, rfl⟩ := beginRequest_some h
  refine ⟨Stock.setPost_grows _ _ _, fun handle => ?_⟩
  cases handle with
  | requestQueue => exact (List.prefix_append _ _).map _
  | inputQueue => exact List.prefix_rfl

theorem grows_arpInput (buffer : Memory) (len : BitVec 16) (env : ArpEnv) :
    Stock.Grows (stock t) (stock { t with toArpGlobals := arpInput t.toArpGlobals buffer len env }) := by
  unfold arpInput
  dsimp only
  split_ifs
  · exact .refl _
  · exact .refl _
  · exact .refl _
  · unfold queueArpEntry
    split
    case h_1 queue hqueue =>
        obtain ⟨-, rfl⟩ := queueSend_eq_some_iff.mp hqueue
        refine ⟨Stock.setPost_grows _ _ _, fun handle => ?_⟩
        cases handle with
        | requestQueue => exact List.prefix_rfl
        | inputQueue => exact (List.prefix_append _ _).map _
    case h_2 => exact .refl _
  · exact .refl _
  · exact .refl _

/-- An iteration of `arp_task` takes the selected item out, and nothing else takes anything out. -/
theorem isService : IsService step Action.isArpTask (fun s => stock s.arp) := by
  intro s a s' h
  cases a with
  | arpTask env =>
      obtain rfl := Option.some.inj h
      rw [Action.isArpTask, if_pos rfl, ← stock_arpTaskIteration s.arp env]
      exact .refl _
  | arpInput buffer len env =>
      obtain rfl := Option.some.inj h
      exact grows_arpInput buffer len env
  | arpGetMacAddr task ip => exact grows_beginRequest h
  | internalSendIpv4Packet task params malloc =>
      simp only [step] at h
      split at h
      · obtain rfl := Option.some.inj h
        exact .refl _
      · exact grows_beginRequest h
  | resume k eth =>
      obtain ⟨c, -, -, rfl⟩ := resumeCaller_some h
      exact .refl _

end NetStack.Arp
