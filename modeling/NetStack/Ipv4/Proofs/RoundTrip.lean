import NetStack.Ipv4.Encoding
import NetStack.Ipv4.Input
import NetStack.WifiManager.Receive

/-!
# A packet reaches the protocol it is for

The frame that one node builds for another, padded by the link to any length, passes every check
of the receive path there, and the protocol that the packet names gets the payload that was sent,
without the padding, and the address of the sender.
-/

namespace NetStack.Ipv4
open NetStack.Lib NetStack.Utility NetStack.Icmpv4 NetStack.WifiManager

/-- What a protocol gets. -/
structure Datagram where
  protocol : BitVec 8
  payload : List (BitVec 8)
  srcIpv4Addr : Ipv4Addr
  deriving DecidableEq

/-- What a call of `ipv4_input` hands over. `icmpv4_input` takes the payload and the source out of
    the packet itself. -/
def Ipv4Call.datagram : Ipv4Call → Datagram
  | .icmpv4Input buffer bufferLen =>
      ⟨icmpProtocolNumber, buffer.load 20 (bufferLen - ipv4HeaderSize).toNat, .read buffer 12⟩
  | .inputTcp buffer length srcIpv4Addr =>
      ⟨Tcp.tcpProtocolNumber, buffer.load 0 length.toNat, srcIpv4Addr⟩

/-- The calls that a frame from the driver leads to at a node. -/
def dispatched (selfNet : NetContext) (counters : RxCounters) (frame : Memory) (len : BitVec 16)
    (eb : Option Nat) : List Ipv4Call :=
  (wifiRxcb counters frame len eb).2.filterMap fun
    | .ipv4Input buffer len => ipv4Input selfNet buffer len
    | _ => none

variable {params : Ipv4TransmitParams} {buffer : Memory}

/-- The header is read back field by field. -/
theorem read_headerBytes (h : buffer.load 0 20 = headerBytes params) :
    (Ipv4Header.read buffer).versionAndIhl = 0x45 ∧
      ntohs (Ipv4Header.read buffer).totalLength = headerLength + params.dataLen ∧
      (Ipv4Header.read buffer).protocol = params.protocol ∧
      (Ipv4Header.read buffer).srcIpv4Addr = params.srcIpv4Addr ∧
      (Ipv4Header.read buffer).dstIpv4Addr = params.dstIpv4Addr := by
  have hbyte : ∀ k (hk : k < 20), buffer k = (headerBytes params)[k] := by
    intro k hk
    simpa using buffer.byte_of_load h (k := k) hk
  refine ⟨hbyte 0 (by decide), ?_, hbyte 9 (by decide), ?_, ?_⟩
  · exact ntohs_load16_eq_iff.mpr ⟨hbyte 2 (by decide), hbyte 3 (by decide)⟩
  · simp only [Ipv4Header.read, Ipv4Addr.read]
    rw [hbyte 12 (by decide), hbyte 13 (by decide), hbyte 14 (by decide), hbyte 15 (by decide)]
    rfl
  · simp only [Ipv4Header.read, Ipv4Addr.read]
    rw [hbyte 16 (by decide), hbyte 17 (by decide), hbyte 18 (by decide), hbyte 19 (by decide)]
    rfl

/-- A packet for the node passes every check. -/
theorem ipv4Input_of_load {selfNet : NetContext} {bufferLen : BitVec 16}
    (h : buffer.load 0 20 = headerBytes params) (hdst : params.dstIpv4Addr = selfNet.ip)
    (hlen : 20 + params.dataLen.toNat ≤ bufferLen.toNat) :
    ipv4Input selfNet buffer bufferLen =
      dispatchProtocol (Ipv4Header.read buffer) buffer headerLength
        (headerLength + params.dataLen) := by
  obtain ⟨hversion, htotal, -, -, hdst'⟩ := read_headerBytes h
  have hbound := bufferLen.isLt
  have hlong : ¬bufferLen < headerLength := by
    rw [BitVec.lt_def]
    change ¬bufferLen.toNat < 20
    omega
  have htotalLen : ¬headerLength + params.dataLen > bufferLen := by
    rw [gt_iff_lt, BitVec.lt_def, BitVec.toNat_add]
    change ¬bufferLen.toNat < (20 + params.dataLen.toNat) % 2 ^ 16
    omega
  unfold ipv4Input
  rw [if_neg hlong]
  dsimp only
  rw [hversion, htotal, if_neg (by decide), if_neg htotalLen]
  have hheaderLen : ((0x45 : BitVec 8) &&& 0x0F).setWidth 16 * 4 = headerLength := by decide
  rw [hheaderLen, netChecksum_headerBytes h, hdst', hdst]
  simp

/-- The packet at the front of a frame reaches its protocol with its payload. -/
theorem datagram_of_load {selfNet : NetContext} {bufferLen : BitVec 16} {payload : List (BitVec 8)}
    (h : buffer.load 0 (20 + params.dataLen.toNat) = headerBytes params ++ payload)
    (hdst : params.dstIpv4Addr = selfNet.ip)
    (hprotocol : params.protocol = icmpProtocolNumber ∨ params.protocol = Tcp.tcpProtocolNumber)
    (hlen : 20 + params.dataLen.toNat ≤ bufferLen.toNat) :
    (ipv4Input selfNet buffer bufferLen).map Ipv4Call.datagram =
      some ⟨params.protocol, payload, params.srcIpv4Addr⟩ := by
  rw [Memory.load_add] at h
  obtain ⟨hheader, hpayload⟩ := List.append_inj h (by simp)
  obtain ⟨-, -, hproto, hsrc, -⟩ := read_headerBytes hheader
  rw [Nat.zero_add] at hpayload
  have hrest : headerLength + params.dataLen - headerLength = params.dataLen := by
    rw [BitVec.add_comm]
    exact BitVec.add_sub_cancel _ _
  rw [ipv4Input_of_load hheader hdst hlen, dispatchProtocol, hproto]
  rcases hprotocol with hicmp | htcp
  · rw [if_pos hicmp, Option.map_some, Ipv4Call.datagram, hicmp]
    change some (Datagram.mk _ (buffer.load 20 (headerLength + params.dataLen - headerLength).toNat)
      (Ipv4Header.read buffer).srcIpv4Addr) = _
    rw [hrest, hpayload, hsrc]
  · rw [if_neg (by rw [htcp]; decide), if_pos htcp, Option.map_some, Ipv4Call.datagram, htcp]
    change some (Datagram.mk _ ((buffer.advance 20).load 0 (headerLength + params.dataLen -
      headerLength).toNat) (Ipv4Header.read buffer).srcIpv4Addr) = _
    rw [hrest, Memory.load_advance, hpayload, hsrc]

/-- The padded frame of a packet. -/
theorem dispatched_of_load {selfNet : NetContext} {frame : Memory} {len : BitVec 16}
    {dstMac srcMac : MacAddr} {payload : List (BitVec 8)} (counters : RxCounters) (eb : Option Nat)
    (h : frame.load 0 (34 + params.dataLen.toNat) =
      Eth.frameHeader dstMac srcMac ipv4Ethertype ++ (headerBytes params ++ payload))
    (hdst : params.dstIpv4Addr = selfNet.ip)
    (hprotocol : params.protocol = icmpProtocolNumber ∨ params.protocol = Tcp.tcpProtocolNumber)
    (hlen : 34 + params.dataLen.toNat ≤ len.toNat) :
    (dispatched selfNet counters frame len eb).map Ipv4Call.datagram =
      [⟨params.protocol, payload, params.srcIpv4Addr⟩] := by
  have hsplit : 34 + params.dataLen.toNat = 14 + (20 + params.dataLen.toNat) := by omega
  rw [hsplit, Memory.load_add] at h
  obtain ⟨hheader, hpacket⟩ := List.append_inj h (by simp)
  rw [Nat.zero_add] at hpacket
  have hdata : (bufferData frame).load 0 (20 + params.dataLen.toNat) =
      headerBytes params ++ payload := by
    rw [bufferData, Memory.load_advance]
    exact hpacket
  have hdataLen : 20 + params.dataLen.toNat ≤ (bufferDataLen len).toNat := by
    have hbound := len.isLt
    rw [bufferDataLen, BitVec.toNat_sub]
    change _ ≤ (2 ^ 16 - 14 + len.toNat) % 2 ^ 16
    omega
  have hdispatch : dispatch frame len = some (.ipv4Input (bufferData frame) (bufferDataLen len)) := by
    have hethertype := Eth.ethertype_of_load hheader
    rw [dispatch, ethertype, hethertype]
    rfl
  have hinput := datagram_of_load hdata hdst hprotocol hdataLen
  obtain ⟨call, hcall, hdatagram⟩ := Option.map_eq_some_iff.mp hinput
  cases eb <;> simp [dispatched, wifiRxcb, hdispatch, hcall, hdatagram]

/-- **What is sent is what arrives.** -/
theorem dispatched_sent (a b : NetContext) (params : Ipv4TransmitParams) (env : SendEnv)
    {heap ethHeap : Memory} {dstMac : MacAddr} (hmalloc : env.malloc = some heap)
    (harp : env.arpGetMacAddr = .ok dstMac) (heth : env.eth.malloc = some ethHeap)
    (hsrc : params.srcIpv4Addr = a.ip) (hdst : params.dstIpv4Addr = b.ip)
    (hprotocol : params.protocol = icmpProtocolNumber ∨ params.protocol = Tcp.tcpProtocolNumber)
    (hdata : params.data.isSome ∨ params.dataLen = 0) (padding : Nat)
    (hfits : 34 + params.dataLen.toNat + padding < 2 ^ 16) :
    ∃ frame, (internalSendIpv4Packet a params env).frame = some frame ∧
      frame.len.toNat = 34 + params.dataLen.toNat ∧
      ∀ received, Memory.AgreeBelow frame.len.toNat frame.bytes received → ∀ counters eb,
        (dispatched b counters received (frame.len + BitVec.ofNat 16 padding) eb).map
          Ipv4Call.datagram = [⟨params.protocol, params.payload, a.ip⟩] := by
  have hpacketLen : (headerLength + params.dataLen).toNat = 20 + params.dataLen.toNat :=
    toNat_packetLen (by omega)
  obtain ⟨frame, hframe⟩ : ∃ frame, (Eth.ethTx dstMac a.mac (htons ipv4Ethertype)
      (buildPacket heap params) (headerLength + params.dataLen) env.eth).1 = some frame :=
    Option.isSome_iff_exists.mp (by rw [Eth.ethTx, heth]; rfl)
  have hlen : frame.len.toNat = 34 + params.dataLen.toNat := by
    rw [Eth.len_ethTx hframe, Eth.toNat_len (by omega), hpacketLen]
    omega
  refine ⟨frame, ?_, hlen, ?_⟩
  · rw [internalSendIpv4Packet, hmalloc]
    dsimp only
    rw [harp]
    exact hframe
  · intro received hreceived counters eb
    have hcontent := Eth.load_ethTx hframe
    rw [hpacketLen, load_packet heap hdata] at hcontent
    have hlong : 34 + params.dataLen.toNat ≤ (frame.len + BitVec.ofNat 16 padding).toNat := by
      rw [BitVec.toNat_add, BitVec.toNat_ofNat]
      omega
    rw [← Nat.add_assoc, ← hreceived.load (by omega)] at hcontent
    rw [← hsrc]
    exact dispatched_of_load counters eb hcontent hdst hprotocol hlong

/-- Three bytes for TCP in a frame that the link pads to 60 bytes. -/
theorem dispatched_padded :
    ∃ frame, (internalSendIpv4Packet ⟨⟨2, 0, 0, 0, 0, 1⟩, ⟨10, 0, 0, 1⟩⟩
        ⟨⟨10, 0, 0, 1⟩, ⟨10, 0, 0, 2⟩, Tcp.tcpProtocolNumber, some ⟨0, .ofBytes [1, 2, 3]⟩, 3⟩
        ⟨some fun _ => 0xAA, .ok ⟨2, 0, 0, 0, 0, 2⟩, ⟨some fun _ => 0xBB, .ok⟩⟩).frame = some frame ∧
      frame.len.toNat = 37 ∧
      ∀ received, Memory.AgreeBelow frame.len.toNat frame.bytes received → ∀ counters eb,
        (dispatched ⟨⟨2, 0, 0, 0, 0, 2⟩, ⟨10, 0, 0, 2⟩⟩ counters received
          (frame.len + BitVec.ofNat 16 23) eb).map Ipv4Call.datagram =
          [⟨Tcp.tcpProtocolNumber, [1, 2, 3], ⟨10, 0, 0, 1⟩⟩] :=
  dispatched_sent ⟨⟨2, 0, 0, 0, 0, 1⟩, ⟨10, 0, 0, 1⟩⟩ ⟨⟨2, 0, 0, 0, 0, 2⟩, ⟨10, 0, 0, 2⟩⟩
    ⟨⟨10, 0, 0, 1⟩, ⟨10, 0, 0, 2⟩, Tcp.tcpProtocolNumber, some ⟨0, .ofBytes [1, 2, 3]⟩, 3⟩ _ rfl rfl rfl
    rfl rfl (.inr rfl) (.inl rfl) 23 (by decide)

end NetStack.Ipv4
