import NetStack.Icmpv4.Proofs.Ping
import NetStack.Node.Proofs.Steps
import NetStack.Tcp.Proofs.Addresses
import NetStack.Tcp.Proofs.Transitions

/-!
# What enters the IPv4 queue

The packets that the three protocols put into the queue: each comes from the address of the node, has
data behind it, and fits into a frame as long as no application asks for more than a frame can hold.
-/

namespace NetStack
open NetStack.Lib NetStack.Utility NetStack.Icmpv4

/-- The packet comes from the node and has data behind it. -/
structure OwnPacket (net : NetContext) (params : Ipv4TransmitParams) : Prop where
  src : params.srcIpv4Addr = net.ip
  data : params.data.isSome = true

/-- The packet fits into a frame. -/
def FitsFrame (params : Ipv4TransmitParams) : Prop := 34 + params.dataLen.toNat < 2 ^ 16

/-- The packets for one protocol. -/
def ofProtocol (protocol : BitVec 8) (packets : List Ipv4TransmitParams) :
    List Ipv4TransmitParams := packets.filter (·.protocol == protocol)

theorem ofProtocol_append (protocol : BitVec 8) (packets packets' : List Ipv4TransmitParams) :
    ofProtocol protocol (packets ++ packets') =
      ofProtocol protocol packets ++ ofProtocol protocol packets' := List.filter_append _ _

theorem ofProtocol_same {protocol : BitVec 8} {packets : List Ipv4TransmitParams}
    (h : ∀ p ∈ packets, p.protocol = protocol) : ofProtocol protocol packets = packets := by
  rw [ofProtocol, List.filter_eq_self]
  exact fun p hp => beq_iff_eq.mpr (h p hp)

theorem ofProtocol_other {protocol protocol' : BitVec 8} {packets : List Ipv4TransmitParams}
    (h : ∀ p ∈ packets, p.protocol = protocol') (hne : protocol' ≠ protocol) :
    ofProtocol protocol packets = [] := by
  rw [ofProtocol, List.filter_eq_nil_iff]
  intro p hp
  simpa [h p hp] using hne

/-! ### UDP -/

namespace Udp

/-- The packet is the datagram of a request. -/
structure PacketFor (net : NetContext) (params : UdpTransmitParams) (packet : Ipv4TransmitParams) :
    Prop extends OwnPacket net packet where
  protocol : packet.protocol = udpProtocolNumber
  dst : packet.dstIpv4Addr = params.dstIpv4Addr
  dataLen : packet.dataLen = udpHeaderSize + params.dataLen

theorem packetFor_udpSendInternal {net : NetContext} {params : UdpTransmitParams} {env : SendEnv}
    {packet : Ipv4TransmitParams} (h : (udpSendInternal net params env).1 = some packet) :
    PacketFor net params packet := by
  unfold udpSendInternal at h
  split at h
  case h_1 => cases h
  case h_2 =>
      dsimp only at h
      split at h
      case isTrue =>
          obtain rfl := Option.some.inj h
          exact ⟨⟨rfl, rfl⟩, rfl, rfl, rfl⟩
      case isFalse => cases h

variable {s s' : System} {a : Action}

/-- What a step does to the requests that wait and to the packets: what waits has been passed to
    `udp_send`, and packets are the datagrams of what has waited. -/
structure Sends (s : System) (a : Action) (s' : System) : Prop where
  selfNet : s'.g.selfNet = s.g.selfNet
  waiting : ∀ params ∈ s'.g.sendQueue, params ∈ s.g.sendQueue ∨ a = .udpSend params
  packets : ∃ packets, s'.transmitted = s.transmitted ++ packets ∧
    ∀ packet ∈ packets, ∃ params ∈ s.g.sendQueue, PacketFor s.g.selfNet params packet

/-- A step that sends nothing. -/
theorem Sends.of_same (hnet : s'.g.selfNet = s.g.selfNet)
    (hwaiting : ∀ params ∈ s'.g.sendQueue, params ∈ s.g.sendQueue ∨ a = .udpSend params)
    (hsame : s'.transmitted = s.transmitted) : Sends s a s' :=
  ⟨hnet, hwaiting, [], by simp [hsame], by simp⟩

theorem step_sends (h : step s a = some s') : Sends s a s' := by
  cases a with
  | udpTask env =>
      simp only [step, udpTaskIteration] at h
      split at h
      case h_1 => cases h
      case h_2 handle set _ =>
          obtain rfl := Option.some.inj h
          unfold handleSelected
          split
          · split
            case h_1 => exact .of_same rfl (fun _ h => .inl h) rfl
            case h_2 port queue _ =>
                unfold allocatePort
                dsimp only
                split <;> exact .of_same rfl (fun _ h => .inl h) rfl
          · split
            case h_1 => exact .of_same rfl (fun _ h => .inl h) rfl
            case h_2 params queue hqueue =>
                have hqueue : s.g.sendQueue = params :: queue := hqueue
                refine ⟨rfl, fun p hp => .inl (hqueue ▸ List.mem_cons_of_mem params hp), _, rfl, ?_⟩
                intro packet hpacket
                refine ⟨params, by rw [hqueue]; exact List.mem_cons_self, ?_⟩
                exact packetFor_udpSendInternal (Option.mem_toList.mp hpacket)
  | udpCreatePort port =>
      obtain rfl := Option.some.inj h
      unfold udpCreatePort
      split
      · exact .of_same rfl (fun _ h => .inl h) rfl
      · split <;> exact .of_same rfl (fun _ h => .inl h) rfl
  | udpSend params =>
      obtain rfl := Option.some.inj h
      unfold udpSend
      split
      case h_1 queue hqueue =>
          obtain ⟨-, rfl⟩ := queueSend_eq_some_iff.mp hqueue
          refine .of_same rfl (fun p hp => ?_) rfl
          rcases List.mem_append.mp hp with hp | hp
          · exact .inl hp
          · exact .inr (by rw [List.mem_singleton.mp hp])
      case h_2 => exact .of_same rfl (fun _ h => .inl h) rfl

end Udp

/-! ### ICMP -/

namespace Icmpv4

theorem packet_sendIcmpv4PingReply {net : NetContext} {dst : Ipv4Addr} {id seqNum dataLen : BitVec 16}
    {data : Memory} {env : PingEnv} {reply : Ipv4TransmitParams}
    (h : (sendIcmpv4PingReply net dst id seqNum data dataLen env).1 = some reply) :
    OwnPacket net reply ∧ reply.protocol = icmpProtocolNumber ∧
      reply.dataLen = icmpv4HeaderSize + dataLen := by
  unfold sendIcmpv4PingReply at h
  split at h
  case h_1 => cases h
  case h_2 =>
      dsimp only at h
      split at h
      case isTrue =>
          obtain rfl := Option.some.inj h
          exact ⟨⟨rfl, rfl⟩, rfl, rfl⟩
      case isFalse => cases h

/-- A reply to a packet that has arrived in a frame. -/
theorem reply_of_ipv4Input {net : NetContext} {data buffer : Memory} {dataLen bufferLen : BitVec 16}
    (h : Ipv4.ipv4Input net data dataLen = some (.icmpv4Input buffer bufferLen)) {env : PingEnv}
    {reply : Ipv4TransmitParams} (hreply : icmpv4Input net buffer bufferLen env = some reply) :
    OwnPacket net reply ∧ reply.protocol = icmpProtocolNumber ∧
      reply.dataLen.toNat + 20 ≤ dataLen.toNat := by
  obtain ⟨rfl, rfl⟩ := handed_to_icmp h
  have htotal := (Ipv4.ipv4Input_eq_some_iff.mp h).1.total
  unfold icmpv4Input at hreply
  split at hreply
  case isTrue => cases hreply
  case isFalse hlong =>
      have hlong := not_short_iff.mp hlong
      dsimp only at hreply
      split at hreply
      case isFalse => cases hreply
      case isTrue =>
          obtain ⟨hown, hprotocol, hlen⟩ := packet_sendIcmpv4PingReply hreply
          refine ⟨hown, hprotocol, ?_⟩
          have hdata := toNat_requestDataLen hlong
          have hbound := (Ipv4.totalLength buffer).isLt
          have hsmall : (requestDataLen buffer).toNat + 8 < 65536 := by omega
          have hreplyLen : reply.dataLen.toNat = 8 + (requestDataLen buffer).toNat := by
            rw [hlen]
            exact toNat_replyLen hsmall
          omega

end Icmpv4

/-! ### TCP -/

namespace Tcp
variable {s s' : System} {a : Action}

/-- The packets that a step adds. -/
theorem step_handedOver (h : step s a = some s') :
    handedOver s'.g.log =
      handedOver s.g.log ++ handedOver (s'.g.log.drop s.g.log.length) := by
  obtain ⟨l, hlog, -⟩ := step_logGrows h
  rw [hlog, List.drop_left, handedOver, handedOver, handedOver, List.flatMap_append]

theorem AllAddressed.step {net : NetContext} (hs : AllAddressed net s.g) (h : step s a = some s') :
    AllAddressed net s'.g :=
  step_preserves (fun _ _ he h => h.effect he) h hs

/-- A request whose packet fits into a frame. -/
def Short (params : TcpTransmitParams) : Prop := Request params ∧ params.dataLen.toNat ≤ 65481

/-- What `tcp_send` is given fits into a frame. -/
def Action.isShort : Action → Bool
  | .tcpSend _ _ _ _ _ len _ => len.toNat ≤ 65481
  | _ => true

theorem Requests.step_short (hs : Requests Short s.g) (hc : a.isShort = true)
    (h : step s a = some s') : Requests Short s'.g := by
  refine step_preserves (fun _ _ he => Requests.effect (fun params hb => ⟨hb.request, ?_⟩)
    (fun _ hr => hr.1) hs.senders he) h hs
  cases hb with
  | data ha => simpa [ha, Action.isShort, tcpSendParams] using hc
  | _ => exact Nat.zero_le _

theorem fitsFrame_of_handedOver (h : Requests Short s.g) {packet : Ipv4TransmitParams}
    (hpacket : packet ∈ handedOver s.g.log) : FitsFrame packet := by
  obtain ⟨t, ht, -, rfl⟩ := mem_handedOver.mp hpacket
  have hwell := h.transmits t (mem_transmissions.mp ht)
  obtain ⟨-, -, -, -, -, hlen⟩ := hwell.ipv4
  obtain ⟨params, ⟨-, hshort⟩, -, hdataLen, -⟩ := hwell.request
  rw [hdataLen] at hshort
  rw [FitsFrame, hlen, datagramLength_toNat (by rw [Fits]; omega)]
  omega

end Tcp

end NetStack
