import NetStack.Arp.Proofs.Pending
import NetStack.Arp.System
import NetStack.Eth.Encoding

/-!
# Where the addresses of transmitted packets come from

Every entry of the cache that has ever been written comes from a reply that `arp_input` has
queued. An entry that has not been written looks like one for the address 0.0.0.0, so that a packet
for that address may go to a node that nobody has announced, and no other packet can.
-/

namespace NetStack.Arp
open NetStack.Lib NetStack.Eth NetStack.Utility

/-- `arp_input` has got a reply, addressed to the node, that carries `mac` for `ip`, and has queued
    it. -/
def Announces (ip : Ipv4Addr) (mac : MacAddr) : NodeEvent → Prop
  | .arpInput data selfIpAddr queued =>
      ntohs data.operation = arpOpReply ∧ data.dstIp = selfIpAddr ∧ data.srcIp = ip ∧
        data.srcMac = mac ∧ queued = [⟨ip, mac⟩]
  | .sent _ _ => False

/-- Some event so far announces `mac` for `ip`. -/
def Announced (history : List NodeEvent) (ip : Ipv4Addr) (mac : MacAddr) : Prop :=
  ∃ e ∈ history, Announces ip mac e

/-- A call of `internal_send_ipv4_packet` that ends behind `history`: a frame goes to a node that
    has been announced, and without an announcement there is an error and no frame. -/
def SentToAnnounced (history : List NodeEvent) (params : Ipv4TransmitParams) (sent : Ipv4.Sent) :
    Prop :=
  (∀ frame, sent.frame = some frame → Announced history params.dstIpv4Addr frame.dstMac) ∧
    ((∀ mac, ¬Announced history params.dstIpv4Addr mac) → sent.frame = none ∧ sent.result ≠ .ok)

/-- All calls so far. -/
def AllToAnnounced (history : List NodeEvent) : Prop :=
  ∀ before params sent after, history = before ++ .sent params sent :: after →
    SentToAnnounced before params sent

/-- The all-zero address. -/
def anyIp : Ipv4Addr := ⟨0, 0, 0, 0⟩

/-- What an entry of the cache holds until it is written. -/
def unusedEntry : ArpEntry := ⟨anyIp, ⟨0, 0, 0, 0, 0, 0⟩⟩

/-- The first entry of the cache for 0.0.0.0 is an unused one, and no reply has announced what it
    seems to say. -/
def UnusedFirst (s : System) : Prop :=
  (∃ i, s.arp.ipMacCache i = unusedEntry ∧ ∀ j < i, (s.arp.ipMacCache j).ip ≠ anyIp) ∧
    ¬Announced s.history anyIp unusedEntry.mac

/-- A step in which a packet for 0.0.0.0 is not handed to the driver on the word of an unused
    entry. -/
def AvoidsUnused (s : System) : Action → Prop
  | .resume k eth =>
      ∀ c, s.callers[k]? = some c → c.packet.isSome → eth.malloc.isSome →
        c.request.ip = anyIp → ¬UnusedFirst s
  | _ => True

theorem Announced.append {history : List NodeEvent} {ip : Ipv4Addr} {mac : MacAddr}
    (h : Announced history ip mac) (events : List NodeEvent) :
    Announced (history ++ events) ip mac := by
  obtain ⟨e, he, hannounces⟩ := h
  exact ⟨e, List.mem_append_left events he, hannounces⟩

/-- What is known of every address in the component. -/
structure Traced (s : System) : Prop where
  queued : ∀ e ∈ s.arp.arpInputQueue, Announced s.history e.ip e.mac
  cached : ∀ i, s.arp.ipMacCache i = unusedEntry ∨
    Announced s.history (s.arp.ipMacCache i).ip (s.arp.ipMacCache i).mac
  callers : ∀ c ∈ s.callers, ∀ params heap, c.packet = some (params, heap) →
    params.dstIpv4Addr = c.request.ip

variable {s s' : System} {selfNet : NetContext}

/-! ### One call -/

/-- The lookup finds the first entry for the address. -/
theorem arpGetCachedMacAddr_ok {s : ArpState} {ip : Ipv4Addr} {mac : MacAddr}
    (h : arpGetCachedMacAddr s ip = .ok mac) :
    ∃ i, (s.ipMacCache i).ip = ip ∧ (s.ipMacCache i).mac = mac ∧
      ∀ j < i, (s.ipMacCache j).ip ≠ ip := by
  unfold arpGetCachedMacAddr at h
  split at h
  case h_1 i hi =>
      obtain ⟨hfound, hfirst⟩ := firstIdx_eq_some_iff.mp hi
      refine ⟨i, (beq_iff_eq.mp hfound).symm, Except.ok.inj h, ?_⟩
      intro j hj hip
      have hnot := hfirst j hj
      rw [beq_eq_false_iff_ne] at hnot
      exact hnot hip.symm
  case h_2 => cases h

theorem arpGetCachedMacAddr_error {s : ArpState} {ip : Ipv4Addr} {result : EspErr}
    (h : arpGetCachedMacAddr s ip = .error result) : result = .fail := by
  unfold arpGetCachedMacAddr at h
  split at h
  case h_1 => cases h
  case h_2 => exact (Except.error.inj h).symm

/-- A call of `internal_send_ipv4_packet` ends with a frame for the node that the lookup has
    returned, or with an error. -/
theorem internalSendIpv4Packet_cases (selfNet : NetContext) (params : Ipv4TransmitParams)
    (env : Ipv4.SendEnv) (hfail : ∀ result, env.arpGetMacAddr = .error result → result ≠ .ok) :
    ((Ipv4.internalSendIpv4Packet selfNet params env).frame = none ∧
        (Ipv4.internalSendIpv4Packet selfNet params env).result ≠ .ok ∧
        ∀ dstMac, env.arpGetMacAddr = .ok dstMac → env.malloc.isSome → env.eth.malloc = none) ∨
      ∃ dstMac frame, env.arpGetMacAddr = .ok dstMac ∧ env.eth.malloc.isSome ∧
        (Ipv4.internalSendIpv4Packet selfNet params env).frame = some frame ∧
        frame.dstMac = dstMac := by
  unfold Ipv4.internalSendIpv4Packet
  split
  case h_1 hmalloc => exact .inl ⟨rfl, by simp, fun _ _ h => by simp [hmalloc] at h⟩
  case h_2 heap hmalloc =>
      dsimp only
      split
      case h_1 result harp => exact .inl ⟨rfl, hfail result harp, fun _ h => by simp [harp] at h⟩
      case h_2 dstMac harp =>
          cases heth : env.eth.malloc with
          | none =>
              refine .inl ⟨?_, ?_, fun _ _ _ => rfl⟩
              · simp [ethTx, heth]
              · simp [ethTx, heth]
          | some ethHeap =>
              obtain ⟨frame, hframe⟩ : ∃ frame, (ethTx dstMac selfNet.mac (htons ipv4Ethertype)
                  (Ipv4.buildPacket heap params) (Ipv4.headerLength + params.dataLen)
                  env.eth).1 = some frame :=
                Option.isSome_iff_exists.mp (by rw [ethTx, heth]; rfl)
              exact .inr ⟨dstMac, frame, harp, rfl, hframe, dstMac_ethTx hframe⟩

/-- A packet that is resumed goes to an announced node exactly if it does not go out on the word
    of an unused entry. -/
theorem sentToAnnounced_iff (htraced : Traced s) (params : Ipv4TransmitParams) (heap : Memory)
    (eth : EthEnv) :
    SentToAnnounced s.history params (Ipv4.internalSendIpv4Packet s.selfNet params
        ⟨some heap, arpGetCachedMacAddr s.arp params.dstIpv4Addr, eth⟩) ↔
      (eth.malloc.isSome → params.dstIpv4Addr = anyIp → ¬UnusedFirst s) := by
  have hcases := internalSendIpv4Packet_cases s.selfNet params
    ⟨some heap, arpGetCachedMacAddr s.arp params.dstIpv4Addr, eth⟩
    fun result h => by rw [arpGetCachedMacAddr_error h]; decide
  generalize Ipv4.internalSendIpv4Packet s.selfNet params _ = sent at hcases ⊢
  rcases hcases with ⟨hnone, hresult, hwhy⟩ | ⟨dstMac, frame, hlookup, heth, hframe, hdst⟩
  · refine iff_of_true ⟨fun frame hframe => ?_, fun _ => ⟨hnone, hresult⟩⟩ ?_
    · rw [hnone] at hframe
      cases hframe
    · -- the lookup of an unused entry does not fail
      rintro heth hany ⟨⟨i, hi, -⟩, -⟩
      cases hlookup : arpGetCachedMacAddr s.arp params.dstIpv4Addr with
      | ok mac =>
          rw [hwhy mac hlookup rfl] at heth
          cases heth
      | error result =>
          unfold arpGetCachedMacAddr at hlookup
          split at hlookup
          case h_1 => cases hlookup
          case h_2 hsearch =>
              have hmiss := firstIdx_eq_none_iff.mp hsearch i
              rw [hi, hany] at hmiss
              exact absurd hmiss (by decide)
  · obtain ⟨i, hip, hmac, hfirst⟩ := arpGetCachedMacAddr_ok hlookup
    constructor
    · rintro hsent - hany ⟨⟨k, hk, hkfirst⟩, hnot⟩
      -- the unused entry is the one that is found
      have hik : i = k := by
        rcases lt_trichotomy i k with hlt | heq | hlt
        · exact absurd (hip.trans hany) (hkfirst i hlt)
        · exact heq
        · exact absurd (by rw [hk, hany]; rfl) (hfirst k hlt)
      have hannounced := hsent.1 frame hframe
      rw [hdst, ← hmac, hik, hk, hany] at hannounced
      exact hnot hannounced
    · intro hused
      have hannounced : Announced s.history params.dstIpv4Addr dstMac := by
        rcases htraced.cached i with hunused | hannounced
        · have hany : params.dstIpv4Addr = anyIp := by rw [← hip, hunused]; rfl
          by_contra hnot
          refine hused heth hany ⟨⟨i, hunused, fun j hj => hany ▸ hfirst j hj⟩, ?_⟩
          have hzero : unusedEntry.mac = dstMac := by rw [← hmac, hunused]
          rwa [hzero, ← hany]
        · rwa [hip, hmac] at hannounced
      refine ⟨fun f hf => ?_, fun hnever => absurd hannounced (hnever dstMac)⟩
      rw [hframe] at hf
      cases hf
      rwa [hdst]

/-! ### The steps -/

theorem allToAnnounced_concat {history : List NodeEvent} {e : NodeEvent} :
    AllToAnnounced (history ++ [e]) ↔
      AllToAnnounced history ∧ ∀ params sent, e = .sent params sent →
        SentToAnnounced history params sent := by
  constructor
  · refine fun h => ⟨fun before params sent after heq => ?_, fun params sent heq => ?_⟩
    · exact h before params sent (after ++ [e]) (by rw [heq]; simp)
    · exact h history params sent [] (by rw [heq])
  · rintro ⟨hall, hlast⟩ before params sent after heq
    rcases List.eq_nil_or_concat after with rfl | ⟨after', e', rfl⟩
    · obtain ⟨rfl, he⟩ := List.append_inj' heq rfl
      exact hlast params sent (List.cons.inj he).1
    · rw [List.concat_eq_append, ← List.cons_append, ← List.append_assoc] at heq
      obtain ⟨rfl, -⟩ := List.append_inj' heq rfl
      exact hall before params sent after' rfl

/-- An iteration of the worker moves entries from its queue into the cache. -/
theorem arpTaskIteration_contents (s : ArpState) (env : ArpTaskEnv) :
    (∀ e ∈ (arpTaskIteration s env).arpInputQueue, e ∈ s.arpInputQueue) ∧
      ∀ i, (arpTaskIteration s env).ipMacCache i = s.ipMacCache i ∨
        (arpTaskIteration s env).ipMacCache i ∈ s.arpInputQueue := by
  have hselected : (selectFromSet s).1.arpInputQueue = s.arpInputQueue ∧
      (selectFromSet s).1.ipMacCache = s.ipMacCache := by
    unfold selectFromSet
    split <;> exact ⟨rfl, rfl⟩
  have hsame := sameContents_sweepPending (selectFromSet s).1 env.sweepTick
  unfold arpTaskIteration
  dsimp only
  generalize sweepPending (selectFromSet s).1 env.sweepTick = swept at hsame ⊢
  have hinput : swept.arpInputQueue = s.arpInputQueue := hsame.input.trans hselected.1
  have hcache : swept.ipMacCache = s.ipMacCache := hsame.cache.trans hselected.2
  rw [← hinput, ← hcache]
  unfold handleSelected
  split
  · split
    case h_1 => exact ⟨fun _ he => he, fun _ => .inl rfl⟩
    case h_2 request queue _ =>
        have hhandled := sameContents_handleRequest
          ({ swept with arpRequestQueue := queue }.note (.dequeued request)) request env
        refine ⟨fun e he => ?_, fun i => .inl ?_⟩
        · rw [hhandled.input] at he
          exact he
        · rw [hhandled.cache]
          rfl
  · split
    case h_1 => exact ⟨fun _ he => he, fun _ => .inl rfl⟩
    case h_2 entry queue hqueue =>
        obtain ⟨hrest, -, -, hentries⟩ :=
          addIpMacCacheEntry_contents { swept with arpInputQueue := queue } entry
        rw [hqueue]
        refine ⟨fun e he => ?_, fun i => (hentries i).imp_right fun hi => ?_⟩
        · rw [hrest] at he
          exact List.mem_cons_of_mem entry he
        · rw [hi]
          exact List.mem_cons_self
  · exact ⟨fun _ he => he, fun _ => .inl rfl⟩

/-- What `arp_input` does to the queue of the worker. -/
theorem arpInput_queue (g : ArpGlobals) (buffer : Memory) (len : BitVec 16) (env : ArpEnv) :
    (arpInput g buffer len env).arpInputQueue = g.arpInputQueue ∨
      ntohs (ArpData.read buffer).operation = arpOpReply ∧
        (ArpData.read buffer).dstIp = g.selfIpAddr ∧
        (arpInput g buffer len env).arpInputQueue =
          g.arpInputQueue ++ [⟨(ArpData.read buffer).srcIp, (ArpData.read buffer).srcMac⟩] := by
  unfold arpInput
  dsimp only
  split
  · exact .inl rfl
  · split
    · exact .inl rfl
    · split
      case isTrue => exact .inl rfl
      case isFalse hself =>
          split
          case isTrue hreply =>
              unfold queueArpEntry
              split
              case h_1 queue hqueue =>
                  obtain ⟨-, rfl⟩ := queueSend_eq_some_iff.mp hqueue
                  exact .inr ⟨hreply, not_not.mp hself, rfl⟩
              case h_2 => exact .inl rfl
          case isFalse =>
              split
              · exact .inl rfl
              · exact .inl rfl

theorem traced_boot (selfNet : NetContext) : Traced (boot selfNet) :=
  ⟨fun _ he => absurd he List.not_mem_nil, fun _ => .inl rfl,
    fun _ hc => absurd hc List.not_mem_nil⟩

/-- More history traces no less. -/
theorem Traced.of_append {events : List NodeEvent} (h : Traced s)
    (hhistory : s'.history = s.history ++ events)
    (hqueued : ∀ e ∈ s'.arp.arpInputQueue, e ∈ s.arp.arpInputQueue)
    (hcached : s'.arp.ipMacCache = s.arp.ipMacCache)
    (hcallers : ∀ c ∈ s'.callers, c ∈ s.callers) : Traced s' where
  queued e he := by
    rw [hhistory]
    exact (h.queued e (hqueued e he)).append events
  cached i := by
    rw [hcached, hhistory]
    exact (h.cached i).imp_right fun hannounced => hannounced.append events
  callers c hc := h.callers c (hcallers c hc)

theorem traced_beginRequest {request : ArpRequest} {packet : Option (Ipv4TransmitParams × Memory)}
    (h : Traced s) (hpacket : ∀ params heap, packet = some (params, heap) →
      params.dstIpv4Addr = request.ip) (hs' : beginRequest s request packet = some s') :
    Traced s' ∧ s'.history = s.history := by
  unfold beginRequest at hs'
  split at hs'
  case isTrue => cases hs'
  case isFalse =>
      split at hs'
      case h_1 => cases hs'
      case h_2 =>
          obtain rfl := Option.some.inj hs'
          refine ⟨⟨h.queued, h.cached, fun c hc => ?_⟩, rfl⟩
          rcases List.mem_append.mp hc with hc | hc
          · exact h.callers c hc
          · obtain rfl := List.mem_singleton.mp hc
            exact hpacket

/-- Every step keeps track of where the addresses come from. -/
theorem traced_step {a : Action} (h : Traced s) (hs' : step s a = some s') : Traced s' := by
  cases a with
  | arpTask env =>
      obtain rfl := Option.some.inj hs'
      obtain ⟨hqueue, hcache⟩ := arpTaskIteration_contents s.arp env
      refine ⟨fun e he => h.queued e (hqueue e he), fun i => ?_, h.callers⟩
      dsimp only
      rcases hcache i with hi | hi
      · rw [hi]
        exact h.cached i
      · exact .inr (h.queued _ hi)
  | arpInput buffer len env =>
      obtain rfl := Option.some.inj hs'
      rcases arpInput_queue s.arp.toArpGlobals buffer len env with hsame | ⟨hreply, hself, hqueue⟩
      · exact h.of_append rfl (fun e he => hsame ▸ he) rfl fun _ hc => hc
      · refine ⟨?_, ?_, h.callers⟩
        · intro e he
          dsimp only at he
          rw [hqueue] at he
          rcases List.mem_append.mp he with he | he
          · exact (h.queued e he).append _
          · obtain rfl := List.mem_singleton.mp he
            refine ⟨_, List.mem_append_right _ (List.mem_singleton_self _), hreply, hself, rfl, rfl, ?_⟩
            rw [hqueue, List.drop_left]
        · intro i
          exact (h.cached i).imp_right fun hannounced => hannounced.append _
  | arpGetMacAddr task ip =>
      exact (traced_beginRequest h (fun _ _ hnone => by cases hnone) hs').1
  | internalSendIpv4Packet task params malloc =>
      cases malloc with
      | none =>
          obtain rfl := Option.some.inj hs'
          exact h.of_append rfl (fun _ he => he) rfl fun _ hc => hc
      | some heap =>
          refine (traced_beginRequest h (fun params' heap' hpacket => ?_) hs').1
          cases hpacket
          rfl
  | resume k eth =>
      simp only [step, resumeCaller] at hs'
      split at hs'
      case h_1 => cases hs'
      case h_2 c hc =>
          split at hs'
          case isTrue => cases hs'
          case isFalse =>
              split at hs'
              · obtain rfl := Option.some.inj hs'
                exact h.of_append (List.append_nil _).symm (fun _ he => he) rfl
                  fun _ hc => List.mem_of_mem_eraseIdx hc
              · obtain rfl := Option.some.inj hs'
                exact h.of_append rfl (fun _ he => he) rfl fun _ hc => List.mem_of_mem_eraseIdx hc

/-- A step ends the calls of `internal_send_ipv4_packet` well exactly if it avoids the unused
    entries. -/
theorem allToAnnounced_step {a : Action} (h : Traced s) (hs' : step s a = some s') :
    AllToAnnounced s'.history ↔ AllToAnnounced s.history ∧ AvoidsUnused s a := by
  cases a with
  | arpTask env =>
      obtain rfl := Option.some.inj hs'
      exact (and_iff_left trivial).symm
  | arpInput buffer len env =>
      obtain rfl := Option.some.inj hs'
      rw [allToAnnounced_concat]
      exact and_congr_right fun _ => iff_of_true (fun _ _ he => by cases he) trivial
  | arpGetMacAddr task ip =>
      have hsame := (traced_beginRequest h (fun _ _ hnone => by cases hnone) hs').2
      rw [hsame]
      exact (and_iff_left trivial).symm
  | internalSendIpv4Packet task params malloc =>
      cases malloc with
      | none =>
          obtain rfl := Option.some.inj hs'
          rw [allToAnnounced_concat]
          refine and_congr_right fun _ => iff_of_true (fun params' sent he => ?_) trivial
          cases he
          exact ⟨fun frame hframe => (by cases hframe), fun _ => ⟨rfl, by simp [Ipv4.internalSendIpv4Packet]⟩⟩
      | some heap =>
          have hpacket : ∀ params' heap', some (params, heap) = some (params', heap') →
              params'.dstIpv4Addr = params.dstIpv4Addr := by
            intro params' heap' hsome
            cases hsome
            rfl
          have hsame := (traced_beginRequest h hpacket hs').2
          rw [hsame]
          exact (and_iff_left trivial).symm
  | resume k eth =>
      simp only [step, resumeCaller] at hs'
      split at hs'
      case h_1 => cases hs'
      case h_2 c hc =>
          have hmem : c ∈ s.callers := List.mem_of_getElem? hc
          split at hs'
          case isTrue => cases hs'
          case isFalse =>
              split at hs'
              case h_1 hpacket =>
                  obtain rfl := Option.some.inj hs'
                  refine (and_iff_left ?_).symm
                  intro c' hc' hsome
                  rw [hc] at hc'
                  cases hc'
                  simp [hpacket] at hsome
              case h_2 params heap hpacket =>
                  obtain rfl := Option.some.inj hs'
                  have hip := h.callers c hmem params heap hpacket
                  have hlast := sentToAnnounced_iff h params heap eth
                  rw [hip] at hlast
                  rw [allToAnnounced_concat]
                  refine and_congr_right fun _ => ⟨fun hsent c' hc' hsome heth hany => ?_, ?_⟩
                  · rw [hc] at hc'
                    cases hc'
                    exact hlast.mp (hsent params _ rfl) heth hany
                  · intro havoids params' sent he
                    cases he
                    exact hlast.mpr fun heth hany =>
                      havoids c hc (by rw [hpacket]; rfl) heth hany

/-- **Packets go to announced nodes, except on the word of an unused entry.** -/
theorem sent_to_announced_iff {as : List Action} (hrun : run step (boot selfNet) as = some s) :
    AllToAnnounced s.history ↔ Guarded step AvoidsUnused (boot selfNet) as := by
  refine run_iff_guarded_of_invariant (I := Traced) (P := fun s : System => AllToAnnounced s.history)
    (fun _ _ _ h hs' => traced_step h hs') (fun _ _ _ h hs' => allToAnnounced_step h hs')
    (traced_boot selfNet) ?_ hrun
  intro before params sent after heq
  simp [boot] at heq

/-- A packet is to be sent to a node, which answers. -/
def answeredRequest : List Action :=
  [.internalSendIpv4Packet 7 ⟨⟨10, 0, 0, 1⟩, ⟨10, 0, 0, 2⟩, 6, none, 0⟩ (some fun _ => 0),
    .arpTask ⟨0, 0, fun _ => 0, some fun _ => 0, .ok⟩,
    .arpInput (.ofBytes ([0, 1, 8, 0, 6, 4, 0, 2] ++ [2, 0, 0, 0, 0, 2] ++ [10, 0, 0, 2] ++
      [2, 0, 0, 0, 0, 1] ++ [10, 0, 0, 1])) 28 ⟨fun _ => 0, none, .fail⟩,
    .arpTask ⟨0, 0, fun _ => 0, none, .fail⟩]

theorem sent_to_announced_answered :
    ∃ s, run step (boot ⟨⟨2, 0, 0, 0, 0, 1⟩, ⟨10, 0, 0, 1⟩⟩)
        (answeredRequest ++ [.resume 0 ⟨some fun _ => 0, .ok⟩]) = some s ∧
      s.history.length = 2 ∧ AllToAnnounced s.history := by
  have hrun₁ : (run step (boot ⟨⟨2, 0, 0, 0, 0, 1⟩, ⟨10, 0, 0, 1⟩⟩) answeredRequest).any
      (fun s => s.callers.all (·.request.ip != anyIp)) = true := by decide +kernel
  have hrun₂ : (run step (boot ⟨⟨2, 0, 0, 0, 0, 1⟩, ⟨10, 0, 0, 1⟩⟩)
      (answeredRequest ++ [.resume 0 ⟨some fun _ => 0, .ok⟩])).any
      (fun s => s.history.length == 2) = true := by decide +kernel
  obtain ⟨u, hu, hcallers⟩ := run_any hrun₁
  obtain ⟨s, hs, hlength⟩ := run_any hrun₂
  refine ⟨s, hs, beq_iff_eq.mp hlength, (sent_to_announced_iff hs).mpr ?_⟩
  rw [guarded_append hu]
  refine ⟨guarded_cons.mpr ⟨trivial, fun _ _ => guarded_cons.mpr ⟨trivial, fun _ _ =>
    guarded_cons.mpr ⟨trivial, fun _ _ => guarded_cons.mpr ⟨trivial, fun _ _ => trivial⟩⟩⟩⟩, ?_⟩
  refine guarded_cons.mpr ⟨fun c hc _ _ hany => ?_, fun _ _ => trivial⟩
  have hother := List.all_eq_true.mp hcallers c (List.mem_of_getElem? hc)
  rw [hany] at hother
  exact absurd hother (by decide)

/-- A packet for 0.0.0.0 goes out although nobody has announced anything. -/
theorem unannounced_packet_sent :
    ∃ s, run step (boot ⟨⟨2, 0, 0, 0, 0, 1⟩, ⟨10, 0, 0, 1⟩⟩)
        [.internalSendIpv4Packet 7 ⟨⟨10, 0, 0, 1⟩, ⟨0, 0, 0, 0⟩, 6, none, 0⟩ (some fun _ => 0),
          .arpTask ⟨0, 0, fun _ => 0, some fun _ => 0, .ok⟩,
          .arpTask ⟨100, 100, fun _ => 0, none, .fail⟩, .resume 0 ⟨some fun _ => 0, .ok⟩] = some s ∧
      ¬AllToAnnounced s.history := by
  have hrun : (run step (boot ⟨⟨2, 0, 0, 0, 0, 1⟩, ⟨10, 0, 0, 1⟩⟩)
      [.internalSendIpv4Packet 7 ⟨⟨10, 0, 0, 1⟩, ⟨0, 0, 0, 0⟩, 6, none, 0⟩ (some fun _ => 0),
        .arpTask ⟨0, 0, fun _ => 0, some fun _ => 0, .ok⟩,
        .arpTask ⟨100, 100, fun _ => 0, none, .fail⟩, .resume 0 ⟨some fun _ => 0, .ok⟩]).any
      (fun s =>
        match s.history with
        | [.sent _ sent] => sent.frame.isSome
        | _ => false) = true := by decide +kernel
  obtain ⟨s, hs, hsent⟩ := run_any hrun
  refine ⟨s, hs, ?_⟩
  intro hall
  split at hsent
  case h_1 params sent heq =>
      obtain ⟨frame, hframe⟩ := Option.isSome_iff_exists.mp hsent
      obtain ⟨e, he, -⟩ := (hall [] params sent [] heq).1 frame hframe
      exact absurd he List.not_mem_nil
  case h_2 => cases hsent

end NetStack.Arp
