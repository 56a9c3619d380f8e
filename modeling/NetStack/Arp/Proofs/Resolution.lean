import NetStack.Arp.Encoding
import NetStack.Arp.Proofs.Pending
import NetStack.WifiManager.Receive

/-!
# Two nodes resolve each other

The two packets of a resolution on their way through the nodes: the request is answered by the
node that it asks for and by no other, the answer ends in the cache of the node that has asked.
-/

namespace NetStack.Arp
open NetStack.Lib NetStack.Eth NetStack.Utility NetStack.WifiManager

/-- What the ARP component of a node does with a frame from the driver. -/
def receiveFrame (g : ArpGlobals) (counters : RxCounters) (frame : Memory) (len : BitVec 16)
    (eb : Option Nat) (env : ArpEnv) : ArpGlobals :=
  (wifiRxcb counters frame len eb).2.foldl
    (fun g call =>
      match call with
      | .arpInput buffer len => arpInput g buffer len env
      | _ => g) g

variable {g : ArpGlobals} {frame : Memory} {dstMac srcMac mac : MacAddr} {ip dstIp : Ipv4Addr}
  {env : ArpEnv}

/-- A frame with an ARP packet goes to `arp_input`. -/
theorem receiveFrame_of_load (h : frame.load 0 14 = frameHeader dstMac srcMac arpEthertype)
    (counters : RxCounters) (len : BitVec 16) (eb : Option Nat) :
    receiveFrame g counters frame len eb env =
      arpInput g (bufferData frame) (bufferDataLen len) env := by
  have hdispatch : dispatch frame len = some (.arpInput (bufferData frame) (bufferDataLen len)) := by
    rw [dispatch, ethertype, ethertype_of_load h]
    rfl
  cases eb <;> simp [receiveFrame, wifiRxcb, hdispatch]

/-- `arp_input` on a packet with known fields. -/
theorem arpInput_of_load {buffer : Memory} {operation : BitVec 16} (len : BitVec 16)
    (hsender : buffer.load 0 18 = senderFields operation mac ip)
    (hdst : buffer.load 24 4 = dstIp.bytes) :
    arpInput g buffer len env =
      if dstIp ≠ g.selfIpAddr then g
      else if operation = arpOpReply then queueArpEntry g ⟨ip, mac⟩
      else if operation = arpOpRequest then (sendArpReply g mac ip env).1
      else g := by
  obtain ⟨hhardware, hprotocol, hoperation, hmac, hip⟩ := read_senderFields hsender
  unfold arpInput
  dsimp only
  rw [hhardware, hprotocol, hoperation, hmac, hip, read_dstIp hdst]
  simp

/-- The bytes of a frame that an ARP packet of 28 bytes is in. -/
theorem load_arpFrame {payload received : Memory} {eth : EthEnv} {f : Frame}
    (h : (ethTx dstMac srcMac (htons arpEthertype) payload 28 eth).1 = some f)
    (hreceived : Memory.AgreeBelow f.len.toNat f.bytes received) :
    received.load 0 14 = frameHeader dstMac srcMac arpEthertype ∧
      ∀ off n, off + n ≤ 28 → (bufferData received).load off n = payload.load off n := by
  have hlen : f.len.toNat = 42 := by
    rw [len_ethTx h]
    rfl
  have hcontent := load_ethTx h
  rw [← hreceived.load (by rw [hlen]; decide), Memory.load_add] at hcontent
  obtain ⟨hheader, hpayload⟩ := List.append_inj hcontent (by simp)
  have hdata : (bufferData received).load 0 28 = payload.load 0 28 := by
    rw [bufferData, Memory.load_advance]
    exact hpayload
  exact ⟨hheader, fun off n hle => (Memory.agreeBelow_of_load hdata).load hle⟩

/-- What a node does with a request. -/
theorem receiveFrame_request {a : ArpGlobals} {stack received : Memory} {eth : EthEnv} {request : Frame}
    (h : (ethTx broadcastMac a.selfMacAddr (htons arpEthertype) (arpRequestBuf stack a ip) 28
      eth).1 = some request)
    (hreceived : Memory.AgreeBelow request.len.toNat request.bytes received) (counters : RxCounters)
    (len : BitVec 16) (eb : Option Nat) :
    receiveFrame g counters received len eb env =
      if ip ≠ g.selfIpAddr then g else (sendArpReply g a.selfMacAddr a.selfIpAddr env).1 := by
  obtain ⟨hheader, hpayload⟩ := load_arpFrame h hreceived
  have hsender := (hpayload 0 18 (by decide)).trans (load_arpRequestBuf stack a ip)
  have hdst := (hpayload 24 4 (by decide)).trans (load_arpRequestBuf_dstIp stack a ip)
  have hop : arpOpRequest ≠ arpOpReply := by decide
  rw [receiveFrame_of_load hheader, arpInput_of_load _ hsender hdst, if_neg hop, if_pos rfl]

/-- What a node does with a reply. -/
theorem receiveFrame_reply {b : ArpGlobals} {stack received : Memory} {eth : EthEnv} {reply : Frame}
    (h : (ethTx mac b.selfMacAddr (htons arpEthertype) (arpReplyBuf stack b mac ip) 28
      eth).1 = some reply)
    (hreceived : Memory.AgreeBelow reply.len.toNat reply.bytes received) (counters : RxCounters)
    (len : BitVec 16) (eb : Option Nat) :
    receiveFrame g counters received len eb env =
      if ip ≠ g.selfIpAddr then g else queueArpEntry g ⟨b.selfIpAddr, b.selfMacAddr⟩ := by
  obtain ⟨hheader, hpayload⟩ := load_arpFrame h hreceived
  obtain ⟨hsender, -, hdst⟩ := load_arpReplyBuf_parts stack b mac ip
  rw [receiveFrame_of_load hheader,
    arpInput_of_load _ ((hpayload 0 18 (by decide)).trans hsender)
      ((hpayload 24 4 (by decide)).trans hdst), if_pos rfl]

/-- **The request is answered once, by the node it is for; the answer is cached.** -/
theorem nodes_resolve_each_other (a b c : ArpGlobals) (hc : c.selfIpAddr ≠ b.selfIpAddr)
    (requestEnv replyEnv : ArpEnv) (hrequest : requestEnv.eth.malloc.isSome)
    (hreply : replyEnv.eth.malloc.isSome) :
    ∃ request reply : Frame,
      transmittedSince a.log (sendArpRequest a b.selfIpAddr requestEnv).1.log = [request] ∧
        request.dstMac = broadcastMac ∧ reply.dstMac = a.selfMacAddr ∧
        (∀ received, Memory.AgreeBelow request.len.toNat request.bytes received →
          ∀ counters len eb,
            transmittedSince b.log (receiveFrame b counters received len eb replyEnv).log = [reply] ∧
            ∀ env, receiveFrame c counters received len eb env = c) ∧
        (∀ waiting : ArpGlobals, waiting.selfIpAddr = a.selfIpAddr →
          waiting.arpInputQueue.length < arpInputQueueLength →
          ∀ received, Memory.AgreeBelow reply.len.toNat reply.bytes received →
          ∀ counters len eb env,
            (receiveFrame waiting counters received len eb env).arpInputQueue =
                waiting.arpInputQueue ++ [⟨b.selfIpAddr, b.selfMacAddr⟩] ∧
              transmittedSince waiting.log (receiveFrame waiting counters received len eb env).log =
                []) ∧
        ∀ (s : ArpState) set queue env, s.arpQueueSet = .inputQueue :: set →
          s.arpInputQueue = ⟨b.selfIpAddr, b.selfMacAddr⟩ :: queue →
          arpGetCachedMacAddr (arpTaskIteration s env) b.selfIpAddr = .ok b.selfMacAddr := by
  obtain ⟨requestHeap, hrequest⟩ := Option.isSome_iff_exists.mp hrequest
  obtain ⟨replyHeap, hreply⟩ := Option.isSome_iff_exists.mp hreply
  obtain ⟨request, hrequest⟩ : ∃ f, (ethTx broadcastMac a.selfMacAddr (htons arpEthertype)
      (arpRequestBuf requestEnv.stack a b.selfIpAddr) 28 requestEnv.eth).1 = some f :=
    Option.isSome_iff_exists.mp (by rw [ethTx, hrequest]; rfl)
  obtain ⟨reply, hreply⟩ : ∃ f, (ethTx a.selfMacAddr b.selfMacAddr (htons arpEthertype)
      (arpReplyBuf replyEnv.stack b a.selfMacAddr a.selfIpAddr) 28 replyEnv.eth).1 = some f :=
    Option.isSome_iff_exists.mp (by rw [ethTx, hreply]; rfl)
  refine ⟨request, reply, ?_, dstMac_ethTx hrequest, dstMac_ethTx hreply, ?_, ?_, ?_⟩
  · rw [sendArpRequest]
    dsimp only
    rw [transmittedSince_append, hrequest]
    rfl
  · intro received hreceived counters len eb
    constructor
    · rw [receiveFrame_request hrequest hreceived, if_neg (not_not.mpr rfl), sendArpReply]
      dsimp only
      rw [List.append_assoc, transmittedSince_append, hreply]
      rfl
    · intro env
      rw [receiveFrame_request hrequest hreceived, if_pos hc.symm]
  · intro waiting hself hroom received hreceived counters len eb env
    rw [receiveFrame_reply hreply hreceived, if_neg (not_not.mpr hself.symm)]
    rw [queueArpEntry, queueSend, if_pos hroom]
    exact ⟨rfl, transmittedSince_append _ _⟩
  · intro s set queue env hset hqueue
    rw [arpTaskIteration_entry hset hqueue env]
    exact arpGetCachedMacAddr_add _ ⟨b.selfIpAddr, b.selfMacAddr⟩

/-- Three nodes of one network. -/
theorem nodes_resolve :
    ∃ request reply : Frame,
      transmittedSince [] (sendArpRequest ⟨⟨10, 0, 0, 1⟩, ⟨2, 0, 0, 0, 0, 1⟩, [], [], []⟩
          ⟨10, 0, 0, 2⟩ ⟨fun _ => 0xAA, ⟨some fun _ => 0xBB, .ok⟩⟩).1.log = [request] ∧
        request.dstMac = broadcastMac ∧ reply.dstMac = ⟨2, 0, 0, 0, 0, 1⟩ := by
  obtain ⟨request, reply, hrequest, hbroadcast, hdst, -⟩ :=
    nodes_resolve_each_other ⟨⟨10, 0, 0, 1⟩, ⟨2, 0, 0, 0, 0, 1⟩, [], [], []⟩
      ⟨⟨10, 0, 0, 2⟩, ⟨2, 0, 0, 0, 0, 2⟩, [], [], []⟩ ⟨⟨10, 0, 0, 3⟩, ⟨2, 0, 0, 0, 0, 3⟩, [], [], []⟩
      (by decide) ⟨fun _ => 0xAA, ⟨some fun _ => 0xBB, .ok⟩⟩ ⟨fun _ => 0xCC, ⟨some fun _ => 0xDD, .ok⟩⟩
      rfl rfl
  exact ⟨request, reply, hrequest, hbroadcast, hdst⟩

end NetStack.Arp
