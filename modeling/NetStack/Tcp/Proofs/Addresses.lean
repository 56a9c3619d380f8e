import NetStack.Tcp.Proofs.Requests
import NetStack.Tcp.Proofs.Moves
import NetStack.Ipv4.Task

/-!
# Where packets go

Every packet that the component hands to IPv4 goes from the address of its host to the peer of its
request, for the protocol number of TCP and with a datagram behind it.
-/

namespace NetStack.Tcp
open NetStack.Lib

/-- The packet of a transmission names this host, the peer of the request and the protocol. -/
structure Transmission.Addressed (net : NetContext) (t : Transmission) : Prop where
  src : t.ipv4.srcIpv4Addr = net.ip
  dst : t.ipv4.dstIpv4Addr = t.params.dstIpv4Addr
  protocol : t.ipv4.protocol = tcpProtocolNumber
  data : t.ipv4.data.isSome = true

/-- All packets so far. -/
structure AllAddressed (net : NetContext) (g : Globals) : Prop where
  selfNet : g.selfNet = net
  sent : ∀ t ∈ transmissions g.log, t.Addressed net

section Effects
variable {net : NetContext} {g g' : Globals} {i : PortIdx} {params : TcpTransmitParams}

theorem Taken.selfNet (h : Taken g i params g') : g'.selfNet = g.selfNet := by
  cases h with
  | queued => rfl
  | full _ _ _ hquiet => exact hquiet.selfNet
  | lost _ _ _ hquiet => exact hquiet.selfNet

theorem Enqueue.selfNet {B : Prop} (h : Enqueue B g params g') : g'.selfNet = g.selfNet := by
  cases h with
  | unfound _ hquiet => exact hquiet.selfNet
  | noSlot _ _ _ _ hquiet => exact hquiet.selfNet
  | taken _ htaken => exact htaken.selfNet

theorem Sends.addressed {seqNum : BitVec 32} {t : Transmission} (ht : Sends g i params seqNum t)
    (hnet : g.selfNet = net) : t.Addressed net := by
  obtain ⟨addr, heap, hipv4⟩ := ht.ipv4
  rw [hnet] at hipv4
  constructor <;> rw [hipv4]
  rfl

namespace AllAddressed

theorem of_same (h : AllAddressed net g) (hnet : g'.selfNet = g.selfNet)
    (hsent : transmissions g'.log = transmissions g.log) : AllAddressed net g' :=
  ⟨hnet.trans h.selfNet, hsent ▸ h.sent⟩

theorem taken (h : AllAddressed net g) (ht : Taken g i params g') : AllAddressed net g' := by
  refine h.of_same ht.selfNet ?_
  cases ht with
  | queued => exact (alike_emit _ rfl).transmissions
  | full _ _ _ hquiet => exact hquiet.alike.transmissions
  | lost hsem htake _ hquiet => exact hquiet.alike.transmissions

theorem enqueue {B : Prop} (h : AllAddressed net g) (he : Enqueue B g params g') :
    AllAddressed net g' := by
  obtain ⟨items, -, hsame⟩ := he.queues
  exact h.of_same he.selfNet hsame.transmissions

theorem setPort (h : AllAddressed net g) (i : PortIdx) (p : TcpPort) :
    AllAddressed net (g.setPort i p) := ⟨h.selfNet, h.sent⟩

theorem emit {t : Transmission} (h : AllAddressed net g) (ht : t.Addressed net) :
    AllAddressed net (g.emit (.transmit t)) := by
  refine ⟨h.selfNet, fun u hu => ?_⟩
  rw [transmissions_emit] at hu
  rcases List.mem_append.mp hu with hu | hu
  · exact h.sent u hu
  · obtain rfl := List.mem_singleton.mp hu
    exact ht

theorem effect {s s' : System} {a : Action} (he : Effect s a s' g g') (h : AllAddressed net g) :
    AllAddressed net g' := by
  cases he with
  | quiet hquiet => exact h.of_same hquiet.selfNet hquiet.alike.transmissions
  | appSend _ _ _ _ henq => exact h.enqueue henq
  | appWait | dropped | listening => exact h.of_same rfl rfl
  | resumed _ _ _ _ htaken => exact h.taken htaken
  | resumedStale => exact h.of_same rfl (alike_emit _ rfl).transmissions
  | passed _ _ _ _ _ _ _ ht => exact AllAddressed.emit (h.of_same rfl rfl) (ht.addressed h.selfNet)
  | recorded _ _ _ _ _ _ _ _ ht =>
      exact AllAddressed.emit (h.of_same rfl rfl) (ht.addressed h.selfNet)
  | retransmitted _ _ ht => exact h.emit (ht.addressed h.selfNet)
  | strayGive | touched | gaveUp | finWait2 | timeWait | ackStuck | acknowledged =>
      exact h.of_same rfl rfl
  | reset _ _ _ _ hr => exact h.of_same hr.selfNet hr.alike.transmissions
  | released | delivered | disconnected => exact h.of_same rfl (alike_emit _ rfl).transmissions
  | tookOver _ _ _ _ _ henq => exact (h.setPort _ _).enqueue henq
  | established =>
      refine h.of_same ?_ (alike_callOnConnect _ _).transmissions
      unfold callOnConnect
      split <;> rfl
  | finReplied _ _ _ _ henq => exact (h.enqueue henq).of_same rfl rfl
  | closing _ _ _ henq => exact (h.setPort _ _).enqueue henq
  | connecting _ _ _ henq =>
      refine AllAddressed.enqueue ?_ henq
      exact h.of_same rfl rfl

end AllAddressed
end Effects

/-- The packets that IPv4 has taken over are those of the accepted transmissions. -/
theorem mem_handedOver {log : List Event} {params : Ipv4TransmitParams} :
    params ∈ handedOver log ↔ ∃ t ∈ transmissions log, t.accepted = true ∧ t.ipv4 = params := by
  simp only [handedOver, List.mem_flatMap, mem_transmissions]
  constructor
  · rintro ⟨e, he, hparams⟩
    cases e with
    | transmit t =>
      simp only [Event.handedOver] at hparams
      split at hparams
      case isTrue hacc => exact ⟨t, he, hacc, (List.mem_singleton.mp hparams).symm⟩
      case isFalse => cases hparams
    | _ => cases hparams
  · rintro ⟨t, ht, hacc, rfl⟩
    exact ⟨_, ht, by simp [Event.handedOver, hacc]⟩

end NetStack.Tcp
