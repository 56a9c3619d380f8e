import NetStack.Arp.Proofs.Calls
import NetStack.Arp.Proofs.Resolution

/-!
# What ARP says

Every frame that the component hands to the driver is an ARP packet of 28 bytes that names the node as
its sender, by the addresses that `arp_set_local_info` has set.
-/

namespace NetStack.Arp
open NetStack.Lib NetStack.Eth NetStack.Utility NetStack.WifiManager

/-- The frame carries an ARP packet of the node. -/
structure SpeaksFor (mac : MacAddr) (ip : Ipv4Addr) (frame : Frame) : Prop where
  length : frame.len = 42
  header : frame.bytes.load 0 14 = frameHeader frame.dstMac mac arpEthertype
  sender : ∃ operation, (bufferData frame.bytes).load 0 18 = senderFields operation mac ip

/-- Frames are added to the log, all of them packets of the node. -/
structure Speaks (g g' : ArpGlobals) : Prop where
  ip : g'.selfIpAddr = g.selfIpAddr
  mac : g'.selfMacAddr = g.selfMacAddr
  log : ∃ events, g'.log = g.log ++ events ∧
    ∀ frame ∈ events.filterMap ArpEvent.frame?, SpeaksFor g.selfMacAddr g.selfIpAddr frame

section Calls
variable {g g' g'' : ArpGlobals}

theorem Speaks.of_log (hip : g'.selfIpAddr = g.selfIpAddr) (hmac : g'.selfMacAddr = g.selfMacAddr)
    (hlog : g'.log = g.log) : Speaks g g' :=
  ⟨hip, hmac, [], by simp [hlog], by simp⟩

theorem Speaks.refl (g : ArpGlobals) : Speaks g g := .of_log rfl rfl rfl

theorem Speaks.trans (h : Speaks g g') (h' : Speaks g' g'') : Speaks g g'' := by
  obtain ⟨events, hlog, hframes⟩ := h.log
  obtain ⟨events', hlog', hframes'⟩ := h'.log
  refine ⟨h'.ip.trans h.ip, h'.mac.trans h.mac, events ++ events', by simp [hlog', hlog], ?_⟩
  rw [List.filterMap_append]
  rw [h.mac, h.ip] at hframes'
  exact List.forall_mem_append.mpr ⟨hframes, hframes'⟩

/-- A packet that begins with the fields of the sender, in a frame. -/
theorem speaksFor_ethTx {dstMac mac : MacAddr} {ip : Ipv4Addr} {operation : BitVec 16}
    {payload : Memory} {eth : EthEnv} {frame : Frame}
    (h : (ethTx dstMac mac (htons arpEthertype) payload 28 eth).1 = some frame)
    (hpayload : payload.load 0 18 = senderFields operation mac ip) : SpeaksFor mac ip frame := by
  obtain ⟨hheader, hrest⟩ := load_arpFrame h (fun _ _ => rfl : Memory.AgreeBelow frame.len.toNat frame.bytes frame.bytes)
  refine ⟨len_ethTx h, ?_, operation, ?_⟩
  · rw [dstMac_ethTx h]
    exact hheader
  · rw [hrest 0 18 (by decide), hpayload]

theorem speaks_sendArpReply (g : ArpGlobals) (mac : MacAddr) (ip : Ipv4Addr) (env : ArpEnv) :
    Speaks g (sendArpReply g mac ip env).1 := by
  refine ⟨rfl, rfl, _, List.append_assoc _ _ _, ?_⟩
  intro frame hframe
  rw [List.filterMap_append] at hframe
  rcases List.mem_append.mp hframe with hframe | hframe
  · have hsent : (ethTx mac g.selfMacAddr (htons arpEthertype) (arpReplyBuf env.stack g mac ip) 28
        env.eth).1 = some frame := by
      simpa [ArpEvent.frame?] using hframe
    exact speaksFor_ethTx hsent (load_arpReplyBuf_parts env.stack g mac ip).1
  · simp [ArpEvent.frame?] at hframe

theorem speaks_sendArpRequest (g : ArpGlobals) (ip : Ipv4Addr) (env : ArpEnv) :
    Speaks g (sendArpRequest g ip env).1 := by
  refine ⟨rfl, rfl, _, rfl, ?_⟩
  intro frame hframe
  have hsent : (ethTx broadcastMac g.selfMacAddr (htons arpEthertype)
      (arpRequestBuf env.stack g ip) 28 env.eth).1 = some frame := by
    simpa [ArpEvent.frame?] using hframe
  exact speaksFor_ethTx hsent (load_arpRequestBuf env.stack g ip)

theorem speaks_arpInput (g : ArpGlobals) (buffer : Memory) (len : BitVec 16) (env : ArpEnv) :
    Speaks g (arpInput g buffer len env) := by
  have hqueued : ∀ entry, Speaks g (queueArpEntry g entry) := by
    intro entry
    unfold queueArpEntry
    split <;> exact ⟨rfl, rfl, _, rfl, by simp [ArpEvent.frame?]⟩
  unfold arpInput
  dsimp only
  split_ifs
  · exact .refl g
  · exact .refl g
  · exact .refl g
  · exact hqueued _
  · exact speaks_sendArpReply _ _ _ _
  · exact .refl g

theorem speaks_notifyPending (s : ArpState) (i : PendingIdx) :
    Speaks s.toArpGlobals (notifyPending s i).toArpGlobals := by
  rw [notifyPending_eq]
  exact .refl _

theorem speaks_sweepPending (s : ArpState) (now : BitVec 32) :
    Speaks s.toArpGlobals (sweepPending s now).toArpGlobals := by
  unfold sweepPending
  refine forIdx_related (R := fun s t : ArpState => Speaks s.toArpGlobals t.toArpGlobals)
    (fun s => .refl s.toArpGlobals) (fun h h' => h.trans h') (fun i u => ?_) s
  unfold expirePending
  split
  · exact speaks_notifyPending u i
  · exact .refl _

theorem speaks_addWaitingTask (s : ArpState) (i : PendingIdx) (task : TaskHandle) :
    Speaks s.toArpGlobals (addWaitingTask s i task).toArpGlobals := by
  unfold addWaitingTask
  dsimp only
  split <;> exact .refl _

theorem speaks_handleRequest (s : ArpState) (request : ArpRequest) (env : ArpTaskEnv) :
    Speaks s.toArpGlobals (handleRequest s request env).toArpGlobals := by
  unfold handleRequest
  split
  case h_1 => exact speaks_addWaitingTask _ _ _
  case h_2 =>
      split
      case h_1 => exact .refl _
      case h_2 allocated i halloc =>
          obtain ⟨-, rfl⟩ := allocPending_some halloc
          have hsent := speaks_sendArpRequest s.toArpGlobals request.ip env.request
          dsimp only
          split
          · exact hsent
          · refine hsent.trans ?_
            exact speaks_addWaitingTask
              { s.setPending i _ with
                toArpGlobals := (sendArpRequest s.toArpGlobals request.ip env.request).1 } i _

theorem speaks_addIpMacCacheEntry (s : ArpState) (entry : ArpEntry) :
    Speaks s.toArpGlobals (addIpMacCacheEntry s entry).toArpGlobals := by
  have hstored : Speaks s.toArpGlobals (storeCacheEntry s entry).toArpGlobals := by
    rw [storeCacheEntry_eq]
    exact .refl _
  unfold addIpMacCacheEntry
  dsimp only
  split
  · exact hstored
  · exact hstored.trans (speaks_notifyPending _ _)

theorem speaks_arpTaskIteration (s : ArpState) (env : ArpTaskEnv) :
    Speaks s.toArpGlobals (arpTaskIteration s env).toArpGlobals := by
  have hselected : Speaks s.toArpGlobals (selectFromSet s).1.toArpGlobals := by
    unfold selectFromSet
    split <;> exact .of_log rfl rfl rfl
  have hswept := hselected.trans (speaks_sweepPending (selectFromSet s).1 env.sweepTick)
  unfold arpTaskIteration
  dsimp only
  generalize sweepPending (selectFromSet s).1 env.sweepTick = swept at hswept ⊢
  refine hswept.trans ?_
  unfold handleSelected
  split
  · split
    case h_1 => exact .refl _
    case h_2 request queue _ =>
        exact speaks_handleRequest
          ({ swept with arpRequestQueue := queue }.note (.dequeued request)) request env
  · split
    case h_1 => exact .refl _
    case h_2 entry queue _ =>
        have htaken : Speaks swept.toArpGlobals
            ({ swept with arpInputQueue := queue } : ArpState).toArpGlobals := .of_log rfl rfl rfl
        exact htaken.trans (speaks_addIpMacCacheEntry _ entry)
  · exact .refl _

end Calls

/-- In every step the component speaks for its node. -/
theorem step_speaks {s s' : System} {a : Action} (h : step s a = some s') :
    Speaks s.arp.toArpGlobals s'.arp.toArpGlobals := by
  cases a with
  | arpTask env =>
      obtain rfl := Option.some.inj h
      exact speaks_arpTaskIteration s.arp env
  | arpInput buffer len env =>
      obtain rfl := Option.some.inj h
      exact speaks_arpInput s.arp.toArpGlobals buffer len env
  | arpGetMacAddr task ip =>
      obtain ⟨-, -, rfl⟩ := beginRequest_some h
      exact .of_log rfl rfl rfl
  | internalSendIpv4Packet task params malloc =>
      cases malloc with
      | none =>
          obtain rfl := Option.some.inj h
          exact .refl _
      | some heap =>
          obtain ⟨-, -, rfl⟩ := beginRequest_some h
          exact .of_log rfl rfl rfl
  | resume k eth =>
      obtain ⟨c, -, -, rfl⟩ := resumeCaller_some h
      exact .refl _

end NetStack.Arp
