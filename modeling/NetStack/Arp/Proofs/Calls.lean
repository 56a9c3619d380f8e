import NetStack.Arp.System

/-!
# The calls of the component

What the two halves of a call of `arp_get_mac_addr` do, each as one equation.
-/

namespace NetStack.Arp
open NetStack.Lib NetStack.Eth

variable {s s' : System}

/-- A call begins: its task has waited for nothing, and there is room for the request. -/
theorem beginRequest_some {request : ArpRequest} {packet : Option (Ipv4TransmitParams × Memory)}
    (h : beginRequest s request packet = some s') :
    (∀ c ∈ s.callers, c.request.task ≠ request.task) ∧
      s.arp.arpRequestQueue.length < arpRequestQueueLength ∧
      s' =
        { s with
          arp :=
            { s.arp with
              arpRequestQueue := s.arp.arpRequestQueue ++ [request]
              arpQueueSet := setPost arpQueueSetLength s.arp.arpQueueSet .requestQueue }
          callers := s.callers ++ [⟨request, packet⟩] } := by
  unfold beginRequest at h
  split at h
  case isTrue => cases h
  case isFalse hidle =>
      split at h
      case h_1 => cases h
      case h_2 queue hqueue =>
          obtain rfl := Option.some.inj h
          obtain ⟨hroom, rfl⟩ := queueSend_eq_some_iff.mp hqueue
          exact ⟨by simpa using hidle, hroom, rfl⟩

/-- What the end of a call leaves in the history: the packet that its task was to send. -/
def sentEvent (s : System) (c : ArpCaller) (eth : EthEnv) : List NodeEvent :=
  (c.packet.map fun p =>
    NodeEvent.sent p.1 (Ipv4.internalSendIpv4Packet s.selfNet p.1
      ⟨some p.2, arpGetCachedMacAddr s.arp c.request.ip, eth⟩)).toList

/-- A call ends: its task has been notified. -/
theorem resumeCaller_some {k : Nat} {eth : EthEnv} (h : resumeCaller s k eth = some s') :
    ∃ c, s.callers[k]? = some c ∧ s.arp.notificationValue c.request.task ≠ 0 ∧
      s' =
        { s with
          arp := taskNotifyTake s.arp c.request.task
          callers := s.callers.eraseIdx k
          history := s.history ++ sentEvent s c eth } := by
  unfold resumeCaller at h
  split at h
  case h_1 => cases h
  case h_2 c hc =>
      split at h
      case isTrue => cases h
      case isFalse hnotified =>
          refine ⟨c, hc, hnotified, ?_⟩
          split at h
          case h_1 hpacket =>
              obtain rfl := Option.some.inj h
              simp [sentEvent, hpacket]
          case h_2 params heap hpacket =>
              obtain rfl := Option.some.inj h
              simp [sentEvent, hpacket]

/-- No step changes the addresses that packets are sent from. -/
theorem step_selfNet {a : Action} (h : step s a = some s') : s'.selfNet = s.selfNet := by
  cases a with
  | arpTask | arpInput => exact Option.some.inj h ▸ rfl
  | arpGetMacAddr =>
      obtain ⟨-, -, rfl⟩ := beginRequest_some h
      rfl
  | internalSendIpv4Packet task params malloc =>
      cases malloc with
      | none => exact Option.some.inj h ▸ rfl
      | some heap =>
          obtain ⟨-, -, rfl⟩ := beginRequest_some h
          rfl
  | resume =>
      obtain ⟨c, -, -, rfl⟩ := resumeCaller_some h
      rfl

/-- What a step adds to the history of the ends: of packets, what `internal_send_ipv4_packet` makes of
    them. -/
theorem step_history {a : Action} (h : step s a = some s') :
    ∃ events, s'.history = s.history ++ events ∧ ∀ params result,
      .sent params result ∈ events →
        ∃ env, result = Ipv4.internalSendIpv4Packet s.selfNet params env := by
  cases a with
  | arpTask env =>
      obtain rfl := Option.some.inj h
      exact ⟨[], (List.append_nil _).symm, by simp⟩
  | arpInput buffer len env =>
      obtain rfl := Option.some.inj h
      exact ⟨_, rfl, by simp⟩
  | arpGetMacAddr task ip =>
      obtain ⟨-, -, rfl⟩ := beginRequest_some h
      exact ⟨[], (List.append_nil _).symm, by simp⟩
  | internalSendIpv4Packet task params malloc =>
      cases malloc with
      | none =>
          obtain rfl := Option.some.inj h
          refine ⟨_, rfl, fun params' result hmem => ?_⟩
          obtain ⟨rfl, rfl⟩ := NodeEvent.sent.inj (List.mem_singleton.mp hmem)
          exact ⟨_, rfl⟩
      | some heap =>
          obtain ⟨-, -, rfl⟩ := beginRequest_some h
          exact ⟨[], (List.append_nil _).symm, by simp⟩
  | resume k eth =>
      obtain ⟨c, -, -, rfl⟩ := resumeCaller_some h
      refine ⟨_, rfl, fun params result hmem => ?_⟩
      cases hpacket : c.packet with
      | none => simp [sentEvent, hpacket] at hmem
      | some packet =>
          simp only [sentEvent, hpacket, Option.map_some, Option.toList_some, List.mem_singleton] at hmem
          obtain ⟨rfl, rfl⟩ := NodeEvent.sent.inj hmem
          exact ⟨_, rfl⟩

/-- What the component hears is what `arp_input` is called with. -/
theorem step_heard {a : Action} (h : step s a = some s') :
    (∀ data self queued, .arpInput data self queued ∈ s'.history →
      .arpInput data self queued ∈ s.history) ∨
      ∃ buffer len env, a = .arpInput buffer len env ∧ s'.history = s.history ++
        [.arpInput (.read buffer) s.arp.selfIpAddr
          (s'.arp.arpInputQueue.drop s.arp.arpInputQueue.length)] := by
  cases a with
  | arpTask env =>
      obtain rfl := Option.some.inj h
      exact .inl fun _ _ _ hmem => hmem
  | arpInput buffer len env =>
      obtain rfl := Option.some.inj h
      exact .inr ⟨buffer, len, env, rfl, rfl⟩
  | arpGetMacAddr task ip =>
      obtain ⟨-, -, rfl⟩ := beginRequest_some h
      exact .inl fun _ _ _ hmem => hmem
  | internalSendIpv4Packet task params malloc =>
      cases malloc with
      | none =>
          obtain rfl := Option.some.inj h
          exact .inl fun _ _ _ hmem => by simpa using hmem
      | some heap =>
          obtain ⟨-, -, rfl⟩ := beginRequest_some h
          exact .inl fun _ _ _ hmem => hmem
  | resume k eth =>
      obtain ⟨c, -, -, rfl⟩ := resumeCaller_some h
      refine .inl fun data self queued hmem => ?_
      rcases List.mem_append.mp hmem with hold | hnew
      · exact hold
      · cases hpacket : c.packet <;> simp [sentEvent, hpacket] at hnew

end NetStack.Arp
