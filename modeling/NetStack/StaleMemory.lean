import NetStack.Arp.Encoding
import NetStack.Encoders
import NetStack.Ipv4.Encoding
import NetStack.Lib.Agreement
import NetStack.Tcp.Proofs.Datagram
import NetStack.Tcp.Proofs.Quiet
import NetStack.Udp.Encoding

/-!
# Stale memory in the frames

Which calls of the encoders send something of the memory that they were given. A frame is
determined layer by layer: the link layer adds a header to the bytes of the packet, and IPv4 one
to the bytes of the datagram. What remains are the encoders that send more than they have
written.
-/

namespace NetStack
open NetStack.Lib NetStack.Utility

variable {o : Outcomes} {b b' : Buffers} {selfNet : NetContext}

/-! ### The link layer -/

/-- A frame: a header and the payload, cut off at the 16-bit length. -/
theorem content_ethTx (dstMac srcMac : MacAddr) (ethertype : BitVec 16) (payload : Memory)
    (payloadLen : BitVec 16) (heap : Memory) (result : EspErr) :
    (Eth.ethTx dstMac srcMac ethertype payload payloadLen ⟨some heap, result⟩).1.map
        Eth.Frame.content =
      some ((Eth.frameHeader dstMac srcMac (htons ethertype) ++
        payload.load 0 payloadLen.toNat).take (14 + payloadLen).toNat) := by
  have htype : htons (htons ethertype) = ethertype := ntohs_htons ethertype
  cases hframe : (Eth.ethTx dstMac srcMac ethertype payload payloadLen ⟨some heap, result⟩).1 with
  | none => cases hframe
  | some frame =>
      rw [← htype] at hframe
      rw [Option.map_some, Eth.Frame.content, Eth.len_ethTx hframe,
        Memory.load_take _ 0 (Eth.toNat_len_le payloadLen), Eth.load_ethTx hframe]

/-- What `eth_tx` does with the memory it gets. -/
theorem frames_ethTx (dstMac srcMac : MacAddr) (ethertype : BitVec 16) (payload : Memory)
    (payloadLen : BitVec 16) (o : Outcomes) (b : Buffers) :
    (Eth.ethTx dstMac srcMac ethertype payload payloadLen (o.eth b)).1.map Eth.Frame.content =
      granted o.frame ((Eth.frameHeader dstMac srcMac (htons ethertype) ++
        payload.load 0 payloadLen.toNat).take (14 + payloadLen).toNat) := by
  cases hframe : o.frame with
  | false => simp [Outcomes.eth, granted, hframe, Eth.ethTx]
  | true =>
      have hcontent := content_ethTx dstMac srcMac ethertype payload payloadLen b.frame o.wifiTxRaw
      simpa [Outcomes.eth, granted, hframe] using hcontent

/-! ### IPv4 -/

/-- The way of a packet: the address of the next hop, if the packet gets to the driver. -/
def Outcomes.nextHop (o : Outcomes) : Option MacAddr :=
  match o.packet, o.arpGetMacAddr, o.frame with
  | true, .ok mac, true => some mac
  | _, _, _ => none

theorem packetFrames_eq (selfNet : NetContext) (params : Ipv4TransmitParams) (o : Outcomes)
    (b : Buffers) :
    packetFrames selfNet params o b =
      (o.nextHop.map fun mac =>
        (Eth.frameHeader mac selfNet.mac ipv4Ethertype ++
          (Ipv4.buildPacket b.packet params).load 0 (20 + params.dataLen).toNat).take
          (14 + (20 + params.dataLen)).toNat).toList := by
  have htype : htons (htons ipv4Ethertype) = ipv4Ethertype := ntohs_htons _
  unfold packetFrames Ipv4.internalSendIpv4Packet Outcomes.nextHop Outcomes.send
  cases hpacket : o.packet with
  | false => rfl
  | true =>
      cases harp : o.arpGetMacAddr with
      | error result => rfl
      | ok mac =>
          simp only [granted, if_true]
          rw [frames_ethTx, htype]
          cases o.frame <;> rfl

/-- The wrapped length of a packet is at most what has been written. -/
theorem toNat_packetLen_le (n : BitVec 16) : (20 + n).toNat ≤ 20 + n.toNat := by
  rw [BitVec.toNat_add]
  exact Nat.mod_le _ _

/-- The frame of a packet is determined by its payload; the payload does not matter when the length
    of the frame has wrapped. -/
theorem packetFrames_congr (params : Ipv4TransmitParams) (data' : Option Block)
    (h : 2 ^ 16 ≤ 34 + params.dataLen.toNat ∨
      (params.data.isSome ∧ data'.isSome ∨ params.dataLen = 0) ∧
        params.payload = { params with data := data' }.payload) :
    packetFrames selfNet params o b = packetFrames selfNet { params with data := data' } o b' := by
  rw [packetFrames_eq, packetFrames_eq]
  congr 2
  funext mac
  dsimp only
  generalize hparams' : ({ params with data := data' } : Ipv4TransmitParams) = params'
  have hheader : Ipv4.headerBytes params = Ipv4.headerBytes params' := by
    subst hparams'
    rfl
  have hbegin : (Ipv4.buildPacket b.packet params).load 0 20 =
      (Ipv4.buildPacket b'.packet params').load 0 20 := by
    rw [Ipv4.load_buildPacket_header, Ipv4.load_buildPacket_header, hheader]
  have hlen := params.dataLen.isLt
  have hpacketLen : (20 + params.dataLen).toNat = (20 + params.dataLen.toNat) % 2 ^ 16 :=
    BitVec.toNat_add 20 params.dataLen
  have hframeLen : (14 + (20 + params.dataLen)).toNat = (14 + (20 + params.dataLen).toNat) % 2 ^ 16 :=
    BitVec.toNat_add 14 (20 + params.dataLen)
  rcases h with hwraps | ⟨hdata, hpayload⟩
  · by_cases hpacket : 2 ^ 16 ≤ 20 + params.dataLen.toNat
    · -- the packet is cut off within its header
      have hsmall : (20 + params.dataLen).toNat ≤ 20 := by omega
      rw [Memory.load_take _ 0 hsmall, Memory.load_take _ 0 hsmall, hbegin]
    · -- the frame is cut off within its header
      have hsmall : (14 + (20 + params.dataLen)).toNat ≤ 14 := by omega
      rw [List.take_append_of_le_length hsmall, List.take_append_of_le_length hsmall]
  · have hwhole : (Ipv4.buildPacket b.packet params).load 0 (20 + params.dataLen.toNat) =
        (Ipv4.buildPacket b'.packet params').load 0 (20 + params.dataLen.toNat) := by
      have hlen' : params'.dataLen = params.dataLen := by rw [← hparams']
      rw [Ipv4.load_packet _ (hdata.imp_left And.left), ← hlen', Ipv4.load_packet, hheader, hpayload,
        hparams']
      rw [← hparams']
      exact hdata.imp_left And.right
    rw [Memory.load_take _ 0 (toNat_packetLen_le params.dataLen), hwhole,
      ← Memory.load_take _ 0 (toNat_packetLen_le params.dataLen)]

/-- A byte of the payload in the frame, if the frame is long enough. -/
theorem packetFrames_byte {params : Ipv4TransmitParams} {mac : MacAddr} (hroute : o.nextHop = some mac)
    (hfits : 34 + params.dataLen.toNat < 2 ^ 16) {k : Nat} (hk : k < params.dataLen.toNat) :
    (packetFrames selfNet params o b).map (·[34 + k]?) =
      [some (Ipv4.buildPacket b.packet params (20 + k))] := by
  have hpacketLen : (20 + params.dataLen).toNat = 20 + params.dataLen.toNat := by
    rw [BitVec.toNat_add]
    exact Nat.mod_eq_of_lt (by simp; omega)
  have hframeLen : (14 + (20 + params.dataLen)).toNat = 34 + params.dataLen.toNat := by
    rw [Eth.toNat_len (by omega), hpacketLen]
    omega
  have hbyte : ((Ipv4.buildPacket b.packet params).load 0 (20 + params.dataLen.toNat))[20 + k]? =
      some (Ipv4.buildPacket b.packet params (20 + k)) := by
    rw [List.getElem?_eq_getElem (by simpa using hk), Memory.load_getElem, Nat.zero_add]
  rw [packetFrames_eq, hroute, Option.map_some, Option.toList_some, List.map_singleton, hframeLen,
    hpacketLen, List.getElem?_take_of_lt (by omega), List.getElem?_append_right (by simp; omega),
    Eth.frameHeader_length, show 34 + k - 14 = 20 + k by omega, hbyte]

theorem buildPacket_some {params : Ipv4TransmitParams} {block : Block}
    (hdata : params.data = some block) (heap : Memory) {k : Nat} (hk : k < params.dataLen.toNat) :
    Ipv4.buildPacket heap params (20 + k) = block.bytes k := by
  simp only [Ipv4.buildPacket, hdata]
  rw [Memory.store_inside _ 20 _ (by simpa using hk), Memory.load_getElem, Nat.zero_add]

theorem buildPacket_none {params : Ipv4TransmitParams} (hdata : params.data = none)
    (heap : Memory) (k : Nat) : Ipv4.buildPacket heap params (20 + k) = heap (20 + k) := by
  have hafter : ∀ (m : Memory) (off : Nat) (bytes : List (BitVec 8)), off + bytes.length ≤ 20 →
      m.store off bytes (20 + k) = m (20 + k) := fun m off bytes h => m.store_after bytes (by omega)
  simp (disch := simp [Ipv4Addr.bytes]) only [Ipv4.buildPacket, hdata, Memory.store16, hafter]

/-! ### TCP -/

/-- The port and the sequence number of the datagram for a request, if there is to be one. -/
def datagramFor (g : Tcp.Globals) (params : Tcp.TcpTransmitParams) :
    Option (Tcp.TcpPort × BitVec 32) :=
  match Tcp.findParamsPort g params with
  | none => none
  | some i =>
      if Tcp.consumesSequence params then
        (Tcp.findEmptyUnacked (g.ports i)).map fun j =>
          (Tcp.recordUnacked (g.ports i) j params g.tick, (g.ports i).seqNum)
      else some (g.ports i, params.seqNum)

/-- The packet with a datagram that is built in `block`. -/
def tcpPacket (g : Tcp.Globals) (params : Tcp.TcpTransmitParams) (heap : Memory)
    (datagram : Tcp.TcpPort × BitVec 32) : Ipv4TransmitParams where
  srcIpv4Addr := g.selfNet.ip
  dstIpv4Addr := params.dstIpv4Addr
  protocol := Tcp.tcpProtocolNumber
  data := some ⟨g.nextAddr, Tcp.buildDatagram heap g.selfNet params datagram.1 datagram.2⟩
  dataLen := Tcp.datagramLength params

theorem packetsSince_append (log events : List Tcp.Event) :
    Tcp.packetsSince log (log ++ events) = events.filterMap Tcp.Event.packet? := by
  rw [Tcp.packetsSince, List.drop_left]

theorem packetsSince_of_quiet {log : List Tcp.Event} {events : List Tcp.Event}
    (h : ∀ e ∈ events, e.quiet = true) : Tcp.packetsSince log (log ++ events) = [] := by
  rw [packetsSince_append, List.filterMap_eq_nil_iff]
  intro e he
  have hquiet := h e he
  cases e <;> simp_all [Tcp.Event.quiet, Tcp.Event.packet?]

/-- What `send_ipv4_packet` puts into its queue. -/
theorem packetsSince_sendIpv4Packet (g g₁ : Tcp.Globals) (t : Tcp.Transmission)
    (h : Tcp.LogQuiet g g₁) :
    Tcp.packetsSince g.log (Tcp.sendIpv4Packet g₁ t).1.log =
      if t.accepted then [t.ipv4] else [] := by
  obtain ⟨before, hbefore, hquiet⟩ := h
  have hnone : Tcp.packetsSince g.log (g.log ++ before) = [] := packetsSince_of_quiet hquiet
  rw [packetsSince_append] at hnone
  unfold Tcp.sendIpv4Packet
  split
  case isTrue haccepted =>
      rw [Tcp.Globals.log_emit, hbefore, List.append_assoc, packetsSince_append,
        List.filterMap_append, hnone]
      simp [Tcp.Event.packet?, haccepted]
  case isFalse haccepted =>
      obtain ⟨after, hafter, hquiet'⟩ := Tcp.logQuiet_free (g₁.emit (.transmit t)) t.ipv4.data
      have hnone' : Tcp.packetsSince g.log (g.log ++ after) = [] := packetsSince_of_quiet hquiet'
      rw [packetsSince_append] at hnone'
      rw [hafter, Tcp.Globals.log_emit, hbefore, List.append_assoc, List.append_assoc,
        packetsSince_append, List.filterMap_append, List.filterMap_append, hnone, hnone']
      simp [Tcp.Event.packet?, haccepted]

/-- What a call of `tcp_send_internal` puts into the IPv4 queue. -/
theorem packetsSince_tcpSendInternal (g : Tcp.Globals) (params : Tcp.TcpTransmitParams)
    (env : Tcp.SendEnv) :
    Tcp.packetsSince g.log (Tcp.tcpSendInternal g params env).1.log =
      match env.malloc, env.ipv4Accepts with
      | some heap, true => ((datagramFor g params).map (tcpPacket g params heap)).toList
      | _, _ => [] := by
  have hquiet : ∀ g₁, Tcp.LogQuiet g g₁ → Tcp.packetsSince g.log g₁.log = [] := by
    rintro g₁ ⟨events, hevents, hquiet⟩
    rw [hevents]
    exact packetsSince_of_quiet hquiet
  unfold Tcp.tcpSendInternal
  cases hmalloc : env.malloc with
  | none => exact hquiet _ ((Tcp.quiet_free g _).trans (Tcp.quiet_warn _ _)).log
  | some heap =>
      dsimp only
      generalize hg₁ : Tcp.Globals.emit { g with nextAddr := g.nextAddr + 1 }
        (.malloc g.nextAddr) = g₁
      have hallocated : Tcp.LogQuiet g g₁ := by
        subst hg₁
        exact ⟨[.malloc g.nextAddr], rfl, by simp [Tcp.Event.quiet]⟩
      have hports : g₁.ports = g.ports := by subst hg₁; rfl
      have hnet : g₁.selfNet = g.selfNet := by subst hg₁; rfl
      have htick : g₁.tick = g.tick := by subst hg₁; rfl
      have hfailed : ∀ w, Tcp.packetsSince g.log ((g₁.free params.data).warn w).log = [] := fun w =>
        hquiet _ (hallocated.trans ((Tcp.quiet_free g₁ _).trans (Tcp.quiet_warn _ _)).log)
      have hfind : Tcp.findPort g₁ params.srcPort params.dstPort params.dstIpv4Addr =
          Tcp.findParamsPort g params := by
        subst hg₁
        rfl
      unfold Tcp.sendAllocated datagramFor
      rw [hfind]
      cases hi : Tcp.findParamsPort g params with
      | none =>
          rw [hfailed]
          cases env.ipv4Accepts <;> rfl
      | some i =>
          dsimp only
          rw [hports, htick]
          split
          · cases hj : Tcp.findEmptyUnacked (g.ports i) with
            | none =>
                rw [hfailed]
                cases env.ipv4Accepts <;> rfl
            | some j =>
                have hrecorded : Tcp.LogQuiet g
                    (g₁.setPort i (Tcp.recordUnacked (g.ports i) j params g.tick)) := hallocated
                unfold Tcp.sendDatagram
                dsimp only
                rw [packetsSince_sendIpv4Packet g _ _ hrecorded]
                cases env.ipv4Accepts with
                | false => rfl
                | true => simp [tcpPacket, hnet]
          · unfold Tcp.sendDatagram
            rw [packetsSince_sendIpv4Packet g _ _ hallocated]
            cases env.ipv4Accepts with
            | false => rfl
            | true => simp [tcpPacket, hnet, hports]

/-! ### The other encoders -/

/-- Every byte of a reply is written. -/
theorem load_pingReplyPacket_congr (heap heap' : Memory) (id seqNum : BitVec 16) (data : Memory)
    (dataLen : BitVec 16) :
    (Icmpv4.pingReplyPacket heap id seqNum data dataLen).load 0 (8 + dataLen).toNat =
      (Icmpv4.pingReplyPacket heap' id seqNum data dataLen).load 0 (8 + dataLen).toNat := by
  have hle : (8 + dataLen).toNat ≤ 8 + dataLen.toNat := by
    rw [BitVec.toNat_add]
    exact Nat.mod_le _ _
  have h := Memory.eqOn_store (Memory.eqOn_empty heap heap') 0 [0]
  have h := Memory.eqOn_store h 1 [0]
  have h := Memory.eqOn_store16 h 2 0
  have h := Memory.eqOn_store16 h 4 (htons id)
  have h := Memory.eqOn_store16 h 6 (htons seqNum)
  have h := Memory.eqOn_store h 8 (data.load 0 dataLen.toNat)
  have h : Set.EqOn _ _ (Set.Ico 0 (0 + (8 + dataLen).toNat)) := h.mono fun k hk => by
    simp only [List.length_singleton, Memory.load_length, Set.mem_union, Set.mem_Ico,
      Set.mem_empty_iff_false] at hk ⊢
    omega
  have hchecksum := netChecksum_of_load (Memory.load_eq_of_eqOn h)
  unfold Icmpv4.pingReplyPacket Icmpv4.icmpv4HeaderSize
  dsimp only
  rw [hchecksum]
  exact Memory.load_eq_of_eqOn (Memory.eqOn_store_of_eqOn h 2 _)

/-- Without data, the bytes behind the header are those of the block. -/
theorem udp_buildDatagram_none {params : Udp.UdpTransmitParams} (hdata : params.data = none)
    (heap : Memory) (k : Nat) : Udp.buildDatagram heap params (8 + k) = heap (8 + k) := by
  have hafter : ∀ (m : Memory) (off : Nat) (bytes : List (BitVec 8)), off + bytes.length ≤ 8 →
      m.store off bytes (8 + k) = m (8 + k) := fun m off bytes h => m.store_after bytes (by omega)
  simp (disch := simp) only [Udp.buildDatagram, hdata, Memory.store16, hafter]

/-- A request leaves the address that it asks for unwritten. -/
theorem arpRequestBuf_stale (stack : Memory) (g : Arp.ArpGlobals) (ip : Ipv4Addr) :
    Arp.arpRequestBuf stack g ip 18 = stack 18 := by
  unfold Arp.arpRequestBuf
  simp (disch := simp [Ipv4Addr.bytes, MacAddr.bytes]) only [Memory.store16, Memory.store_outside]

/-! ### All encoders -/

/-- The call sends nothing that it has not written. A payload of which only the length is given is
    not written; it does no harm if no datagram is built for it or if the 16-bit length of the frame
    wraps. -/
def Encoder.Written : Encoder → Prop
  | .sendArpRequest _ _ => False
  | .sendArpReply _ _ _ | .sendIcmpv4PingReply _ _ _ _ _ _ | .ethTx _ _ _ _ _ => True
  | .tcpSendInternal g params =>
      params.data.isSome ∨ params.dataLen = 0 ∨ 2 ^ 16 ≤ 54 + params.dataLen.toNat ∨
        datagramFor g params = none
  | .udpSendInternal _ params =>
      params.data.isSome ∨ params.dataLen = 0 ∨ 2 ^ 16 ≤ 42 + params.dataLen.toNat
  | .internalSendIpv4Packet _ params =>
      params.data.isSome ∨ params.dataLen = 0 ∨ 2 ^ 16 ≤ 34 + params.dataLen.toNat

/-- The frames of a packet whose payload agrees in both runs. -/
theorem packetFrames_block_congr {params params' : Ipv4TransmitParams} {block block' : Block}
    (hdata : params.data = some block) (hparams' : params' = { params with data := some block' })
    (h : 2 ^ 16 ≤ 34 + params.dataLen.toNat ∨
      block.bytes.load 0 params.dataLen.toNat = block'.bytes.load 0 params.dataLen.toNat) :
    packetFrames selfNet params o b = packetFrames selfNet params' o b' := by
  rw [hparams']
  refine packetFrames_congr params (some block') (h.imp_right fun hload => ⟨?_, ?_⟩)
  · exact .inl ⟨by simp [hdata], rfl⟩
  · simpa [Ipv4TransmitParams.payload, hdata] using hload

theorem tcp_frames_congr {g : Tcp.Globals} {params : Tcp.TcpTransmitParams}
    (h : (Encoder.tcpSendInternal g params).Written) (o : Outcomes) (b b' : Buffers) :
    (Encoder.tcpSendInternal g params).frames o b =
      (Encoder.tcpSendInternal g params).frames o b' := by
  simp only [Encoder.frames, packetsSince_tcpSendInternal]
  cases hdatagram : o.datagram with
  | false => simp [granted]
  | true =>
      cases haccepts : o.ipv4Accepts with
      | false => simp [granted]
      | true =>
          simp only [granted, if_true]
          cases hfor : datagramFor g params with
          | none => simp
          | some datagram =>
              simp only [Option.map_some, Option.toList_some, List.flatMap_cons, List.flatMap_nil,
                List.append_nil]
              apply packetFrames_block_congr rfl rfl
              have hlen : (Tcp.datagramLength params).toNat =
                  (20 + params.dataLen.toNat) % 2 ^ 16 := BitVec.toNat_add 20 params.dataLen
              have hbound := params.dataLen.isLt
              dsimp only [tcpPacket]
              rcases h with hsome | hzero | hwraps | hnone
              · exact .inr (Tcp.load_buildDatagram_congr _ _ _ _ _ (.inl hsome))
              · exact .inr (Tcp.load_buildDatagram_congr _ _ _ _ _ (.inr (.inl hzero)))
              · by_cases hsmall : (Tcp.datagramLength params).toNat ≤ 20
                · exact .inr (Tcp.load_buildDatagram_congr _ _ _ _ _ (.inr (.inr hsmall)))
                · exact .inl (by omega)
              · simp [hfor] at hnone

theorem udp_frames_congr {params : Udp.UdpTransmitParams}
    (h : (Encoder.udpSendInternal selfNet params).Written) (o : Outcomes) (b b' : Buffers) :
    (Encoder.udpSendInternal selfNet params).frames o b =
      (Encoder.udpSendInternal selfNet params).frames o b' := by
  simp only [Encoder.frames, Udp.udpSendInternal]
  cases hdatagram : o.datagram with
  | false => simp [granted]
  | true =>
      cases haccepts : o.ipv4Accepts with
      | false => simp [granted]
      | true =>
          simp only [granted, if_true, Option.toList_some, List.flatMap_cons, List.flatMap_nil,
            List.append_nil]
          apply packetFrames_block_congr rfl rfl
          have hlen : (Udp.udpHeaderSize + params.dataLen).toNat =
              (8 + params.dataLen.toNat) % 2 ^ 16 := BitVec.toNat_add 8 params.dataLen
          have hbound := params.dataLen.isLt
          have hle : (Udp.udpHeaderSize + params.dataLen).toNat ≤ 8 + params.dataLen.toNat :=
            hlen ▸ Nat.mod_le _ _
          dsimp only
          have hwritten : params.data.isSome ∨ params.dataLen = 0 →
              (Udp.buildDatagram b.datagram.bytes params).load 0
                  (Udp.udpHeaderSize + params.dataLen).toNat =
                (Udp.buildDatagram b'.datagram.bytes params).load 0
                  (Udp.udpHeaderSize + params.dataLen).toNat := by
            intro hdata
            rw [Memory.load_take _ 0 hle, Memory.load_take _ 0 hle, Udp.load_buildDatagram _ hdata,
              Udp.load_buildDatagram _ hdata]
          rcases h with hsome | hzero | hwraps
          · exact .inr (hwritten (.inl hsome))
          · exact .inr (hwritten (.inr hzero))
          · by_cases hsmall : (Udp.udpHeaderSize + params.dataLen).toNat ≤ 8
            · rw [Memory.load_take _ 0 hsmall, Memory.load_take _ 0 hsmall,
                Udp.load_buildDatagram_header, Udp.load_buildDatagram_header]
              exact .inr rfl
            · exact .inl (by omega)

/-- The frames of an ARP packet with the payload `buf`. -/
theorem arp_frames (dstMac : MacAddr) (g : Arp.ArpGlobals) (buf : Memory) (o : Outcomes)
    (b : Buffers) {events : List Arp.ArpEvent}
    (hevents : events.filterMap Arp.ArpEvent.frame? = []) :
    (Arp.transmittedSince g.log (g.log ++
        (((Eth.ethTx dstMac g.selfMacAddr (htons Arp.arpEthertype) buf 28 (o.eth b)).1.map
          Arp.ArpEvent.wifiTx).toList ++ events))).map Eth.Frame.content =
      (granted o.frame
        (Eth.frameHeader dstMac g.selfMacAddr Arp.arpEthertype ++ buf.load 0 28)).toList := by
  have htype : htons (htons Arp.arpEthertype) = Arp.arpEthertype := ntohs_htons _
  have hlen : ((14 : BitVec 16) + 28).toNat = 42 := rfl
  have hframes := frames_ethTx dstMac g.selfMacAddr (htons Arp.arpEthertype) buf 28 o b
  rw [htype, hlen, List.take_of_length_le (by simp)] at hframes
  rw [Arp.transmittedSince_append, List.filterMap_append, hevents, List.append_nil]
  have hcontent : ((granted o.frame (Eth.frameHeader dstMac g.selfMacAddr Arp.arpEthertype ++
      buf.load 0 28))).toList = (granted o.frame (Eth.frameHeader dstMac g.selfMacAddr
        Arp.arpEthertype ++ buf.load 0 (28 : BitVec 16).toNat)).toList := rfl
  rw [hcontent, ← hframes]
  cases (Eth.ethTx dstMac g.selfMacAddr (htons Arp.arpEthertype) buf 28 (o.eth b)).1 <;> rfl

/-- A run in which no call fails. -/
def succeeds : Outcomes where
  datagram := true
  packet := true
  frame := true
  ipv4Accepts := true
  arpGetMacAddr := .ok ⟨0, 0, 0, 0, 0, 0⟩
  wifiTxRaw := .ok

/-- Memory that is full of one byte. -/
def fullOf (v : BitVec 8) : Buffers := ⟨fun _ => v, ⟨0, fun _ => v⟩, fun _ => v, fun _ => v⟩

/-- A call one of whose frames shows at `n` what its memory is full of. -/
def Encoder.Leaks (e : Encoder) (n : Nat) : Prop :=
  ∀ v, (e.frames succeeds (fullOf v)).map (·[n]?) = [some v]

theorem Encoder.Leaks.not_agree {e : Encoder} {n : Nat} (hleak : e.Leaks n) :
    ¬∀ o b b', e.frames o b = e.frames o b' := by
  intro h
  have hzeros := hleak 0
  rw [h succeeds (fullOf 0) (fullOf 1), hleak 1] at hzeros
  exact absurd hzeros (by decide)

/-- A packet shows the byte of its payload at which nothing was written. -/
theorem packetFrames_leak {params : Ipv4TransmitParams} {v : BitVec 8} {k : Nat}
    (hfits : 34 + params.dataLen.toNat < 2 ^ 16) (hk : k < params.dataLen.toNat)
    (hbyte : Ipv4.buildPacket (fun _ => v) params (20 + k) = v) :
    (packetFrames selfNet params succeeds (fullOf v)).map (·[34 + k]?) = [some v] := by
  have hroute : succeeds.nextHop = some ⟨0, 0, 0, 0, 0, 0⟩ := rfl
  rw [packetFrames_byte hroute hfits hk]
  exact congrArg (fun w => [some w]) hbyte

/-- A request sends the six bytes of the target hardware address as they were. -/
theorem sendArpRequest_leaks (g : Arp.ArpGlobals) (ip : Ipv4Addr) :
    (Encoder.sendArpRequest g ip).Leaks 32 := by
  intro v
  have hframes := arp_frames Arp.broadcastMac g (Arp.arpRequestBuf (fun _ => v) g ip) succeeds
    (fullOf v) (show List.filterMap Arp.ArpEvent.frame? [] = [] from rfl)
  rw [List.append_nil] at hframes
  have hbyte : ((Arp.arpRequestBuf (fun _ => v) g ip).load 0 28)[18]? = some v := by
    rw [List.getElem?_eq_getElem (by simp), Memory.load_getElem, Nat.zero_add, arpRequestBuf_stale]
  calc ((Encoder.sendArpRequest g ip).frames succeeds (fullOf v)).map (·[32]?)
      = (granted true (Eth.frameHeader Arp.broadcastMac g.selfMacAddr Arp.arpEthertype ++
          (Arp.arpRequestBuf (fun _ => v) g ip).load 0 28)).toList.map (·[32]?) :=
        congrArg (List.map (·[32]?)) hframes
    _ = [some v] := by
        rw [granted, if_pos rfl, Option.toList_some, List.map_singleton,
          List.getElem?_append_right (by simp), Eth.frameHeader_length, hbyte]

theorem tcpSendInternal_leaks {g : Tcp.Globals} {params : Tcp.TcpTransmitParams}
    (hdata : params.data = none) (hlen : params.dataLen ≠ 0)
    (hfits : 54 + params.dataLen.toNat < 2 ^ 16) (hfor : datagramFor g params ≠ none) :
    (Encoder.tcpSendInternal g params).Leaks 54 := by
  intro v
  obtain ⟨datagram, hdatagram⟩ := Option.ne_none_iff_exists'.mp hfor
  have hpos : 0 < params.dataLen.toNat := Nat.pos_of_ne_zero fun h => hlen (BitVec.eq_of_toNat_eq h)
  have hfits' : Tcp.Fits params := by
    unfold Tcp.Fits
    omega
  have hdatagramLen := Tcp.datagramLength_toNat hfits'
  have hframes : (Encoder.tcpSendInternal g params).frames succeeds (fullOf v) =
      packetFrames g.selfNet (tcpPacket g params (fun _ => v) datagram) succeeds (fullOf v) := by
    simp [Encoder.frames, packetsSince_tcpSendInternal, succeeds, fullOf, granted, hdatagram]
  rw [hframes]
  refine packetFrames_leak (k := 20) (by dsimp only [tcpPacket]; omega)
    (by dsimp only [tcpPacket]; omega) ?_
  rw [buildPacket_some rfl _ (by dsimp only [tcpPacket]; omega)]
  exact Tcp.buildDatagram_none (k := 0) hfits' hdata hpos

theorem udpSendInternal_leaks {params : Udp.UdpTransmitParams} (hdata : params.data = none)
    (hlen : params.dataLen ≠ 0) (hfits : 42 + params.dataLen.toNat < 2 ^ 16) :
    (Encoder.udpSendInternal selfNet params).Leaks 42 := by
  intro v
  have hpos : 0 < params.dataLen.toNat := Nat.pos_of_ne_zero fun h => hlen (BitVec.eq_of_toNat_eq h)
  have hdatagramLen : (Udp.udpHeaderSize + params.dataLen).toNat = 8 + params.dataLen.toNat := by
    rw [BitVec.toNat_add]
    exact Nat.mod_eq_of_lt (show 8 + params.dataLen.toNat < 2 ^ 16 by omega)
  apply packetFrames_leak (k := 8) (by dsimp only; omega) (by dsimp only; omega)
  rw [buildPacket_some rfl _ (by dsimp only; omega)]
  exact udp_buildDatagram_none hdata _ 0

/-- The block of the packet shows where the payload should be. -/
theorem internalSendIpv4Packet_leaks {params : Ipv4TransmitParams} (hdata : params.data = none)
    (hlen : params.dataLen ≠ 0) (hfits : 34 + params.dataLen.toNat < 2 ^ 16) :
    (Encoder.internalSendIpv4Packet selfNet params).Leaks 34 := by
  intro v
  have hpos : 0 < params.dataLen.toNat := Nat.pos_of_ne_zero fun h => hlen (BitVec.eq_of_toNat_eq h)
  exact packetFrames_leak (k := 0) hfits hpos (buildPacket_none hdata _ 0)

/-- The frames of a call do not depend on the memory that it gets exactly if the call sends nothing
    that it has not written. -/
theorem frames_agree_iff (e : Encoder) :
    (∀ o b b', e.frames o b = e.frames o b') ↔ e.Written := by
  constructor
  · intro h
    cases e with
    | sendArpRequest g ip => exact absurd h (sendArpRequest_leaks g ip).not_agree
    | sendArpReply | sendIcmpv4PingReply | ethTx => trivial
    | tcpSendInternal g params =>
        by_contra hnot
        simp only [Encoder.Written, not_or, not_le] at hnot
        obtain ⟨hdata, hlen, hfits, hfor⟩ := hnot
        exact (tcpSendInternal_leaks (Option.not_isSome_iff_eq_none.mp hdata) hlen hfits hfor).not_agree h
    | udpSendInternal selfNet params =>
        by_contra hnot
        simp only [Encoder.Written, not_or, not_le] at hnot
        obtain ⟨hdata, hlen, hfits⟩ := hnot
        exact (udpSendInternal_leaks (Option.not_isSome_iff_eq_none.mp hdata) hlen hfits).not_agree h
    | internalSendIpv4Packet selfNet params =>
        by_contra hnot
        simp only [Encoder.Written, not_or, not_le] at hnot
        obtain ⟨hdata, hlen, hfits⟩ := hnot
        exact (internalSendIpv4Packet_leaks (Option.not_isSome_iff_eq_none.mp hdata) hlen
          hfits).not_agree h
  · intro h o b b'
    cases e with
    | sendArpRequest g ip => exact absurd h not_false
    | sendArpReply g macAddr ipAddr =>
        simp only [Encoder.frames, Arp.sendArpReply, List.append_assoc]
        rw [arp_frames _ _ _ _ _ rfl, arp_frames _ _ _ _ _ rfl, Arp.load_arpReplyBuf,
          Arp.load_arpReplyBuf]
    | sendIcmpv4PingReply selfNet dstIpv4Addr id seqNum data dataLen =>
        simp only [Encoder.frames, Icmpv4.sendIcmpv4PingReply]
        cases o.datagram with
        | false => simp [granted]
        | true =>
            cases o.ipv4Accepts with
            | false => simp [granted]
            | true =>
                simp only [granted, if_true, Option.toList_some, List.flatMap_cons,
                  List.flatMap_nil, List.append_nil]
                exact packetFrames_block_congr rfl rfl
                  (.inr (load_pingReplyPacket_congr _ _ id seqNum data dataLen))
    | tcpSendInternal g params => exact tcp_frames_congr h o b b'
    | udpSendInternal selfNet params => exact udp_frames_congr h o b b'
    | internalSendIpv4Packet selfNet params =>
        apply packetFrames_congr params params.data
        rcases h with hsome | hzero | hwraps
        · exact .inr ⟨.inl ⟨hsome, hsome⟩, rfl⟩
        · exact .inr ⟨.inr hzero, rfl⟩
        · exact .inl hwraps
    | ethTx dstMac srcMac ethertype payload payloadLen =>
        simp only [Encoder.frames, frames_ethTx]

/-- A node asks for the address of a neighbour: the request shows what was on the stack. -/
theorem arp_request_shows_stack :
    (Encoder.sendArpRequest ⟨⟨10, 0, 0, 1⟩, ⟨2, 0, 0, 0, 0, 1⟩, [], [], []⟩ ⟨10, 0, 0, 2⟩).frames
        succeeds (fullOf 0) ≠
      (Encoder.sendArpRequest ⟨⟨10, 0, 0, 1⟩, ⟨2, 0, 0, 0, 0, 1⟩, [], [], []⟩ ⟨10, 0, 0, 2⟩).frames
        succeeds (fullOf 1) := by
  decide +kernel

end NetStack
