import NetStack.Arp.Proofs.Announced
import NetStack.Network.Proofs.Streams

/-!
# Packets go to the station they are for

The nodes of a network learn each other's addresses from the ARP packets that they say themselves. As long
as no other station spoils them, every node has the right address of every other one, and every frame with
a packet for a node goes to that node.
-/

namespace NetStack.Arp
open NetStack.Lib NetStack.Eth

/-- Packets for an address have gone to stations that were announced for it. -/
structure SentAsAnnounced (s : System) : Prop where
  traced : Traced s
  sent : ∀ params result frame, .sent params result ∈ s.history → result.frame = some frame →
    params.dstIpv4Addr ≠ anyIp → Announced s.history params.dstIpv4Addr frame.dstMac

theorem sentAsAnnounced_boot (selfNet : NetContext) : SentAsAnnounced (boot selfNet) :=
  ⟨traced_boot selfNet, by simp [boot]⟩

theorem SentAsAnnounced.step {s s' : System} {a : Action} (hs : SentAsAnnounced s)
    (h : Arp.step s a = some s') : SentAsAnnounced s' := by
  refine ⟨traced_step hs.traced h, ?_⟩
  intro params result frame hmem hframe hany
  -- what has been announced before stays announced
  have hkept : ∀ events, s'.history = s.history ++ events → .sent params result ∈ s.history →
      Announced s'.history params.dstIpv4Addr frame.dstMac := fun events hhistory hold =>
    hhistory ▸ (hs.sent params result frame hold hframe hany).append events
  cases a with
  | arpTask env =>
      obtain rfl := Option.some.inj h
      exact hs.sent params result frame hmem hframe hany
  | arpInput buffer len env =>
      obtain rfl := Option.some.inj h
      rcases List.mem_append.mp hmem with hold | hnew
      · exact hkept _ rfl hold
      · cases List.mem_singleton.mp hnew
  | arpGetMacAddr task ip =>
      obtain ⟨-, -, rfl⟩ := beginRequest_some h
      exact hs.sent params result frame hmem hframe hany
  | internalSendIpv4Packet task params' malloc =>
      cases malloc with
      | none =>
          obtain rfl := Option.some.inj h
          rcases List.mem_append.mp hmem with hold | hnew
          · exact hkept _ rfl hold
          · obtain ⟨rfl, rfl⟩ := NodeEvent.sent.inj (List.mem_singleton.mp hnew)
            cases hframe
      | some heap =>
          obtain ⟨-, -, rfl⟩ := beginRequest_some h
          exact hs.sent params result frame hmem hframe hany
  | resume k eth =>
      obtain ⟨c, hc, -, rfl⟩ := resumeCaller_some h
      rcases List.mem_append.mp hmem with hold | hnew
      · exact hkept _ rfl hold
      · cases hpacket : c.packet with
        | none => simp [sentEvent, hpacket] at hnew
        | some packet =>
            simp only [sentEvent, hpacket, Option.map_some, Option.toList_some,
              List.mem_singleton] at hnew
            obtain ⟨rfl, rfl⟩ := NodeEvent.sent.inj hnew
            have hip := hs.traced.callers c (List.mem_of_getElem? hc) packet.1 packet.2 hpacket
            have hlast := (sentToAnnounced_iff hs.traced packet.1 packet.2 eth).mpr
              fun _ hzero => absurd hzero hany
            rw [← hip] at hframe
            exact (hlast.1 frame hframe).append _

end NetStack.Arp

namespace NetStack
open NetStack.Lib NetStack.Eth NetStack.Utility NetStack.WifiManager

/-- An ARP packet does not say anything false about the nodes of a network. -/
def TruthfulData {ι : Type} (net : ι → NetContext) (data : Arp.ArpData) : Prop :=
  ∀ l, data.srcIp = (net l).ip → data.srcMac = (net l).mac

/-- No ARP packet of another station says anything false about the nodes. -/
def NetworkAction.Truthful {ι : Type} (net : ι → NetContext) : NetworkAction ι → Prop
  | .node _ _ | .deliver _ _ _ _ _ _ _ => True
  | .foreign _ frame _ _ _ =>
      ethertype frame = Arp.arpEthertype → TruthfulData net (.read (bufferData frame))

instance {ι : Type} [Fintype ι] (net : ι → NetContext) (x : NetworkAction ι) :
    Decidable (x.Truthful net) :=
  match x with
  | .node _ _ | .deliver _ _ _ _ _ _ _ => isTrue trivial
  | .foreign _ frame _ _ _ =>
      inferInstanceAs (Decidable (ethertype frame = Arp.arpEthertype →
        ∀ l, (Arp.ArpData.read (bufferData frame)).srcIp = (net l).ip →
          (Arp.ArpData.read (bufferData frame)).srcMac = (net l).mac))

namespace Network
variable {ι : Type} {net : ι → NetContext} {s s' : Network ι} {x : NetworkAction ι}
  {xs : List (NetworkAction ι)}

/-- The ARP component of a node, seen from the network. -/
theorem arp_of_step {j : ι} {a : NodeAction} {n : Node} (hn : Node.step (s j) a = some n) :
    n.arp = (s j).arp ∨ (∃ b, Node.RunsArp a b ∧ Arp.step (s j).arp b = some n.arp) ∨
      ∃ params malloc, Arp.step (s j).arp
        (.internalSendIpv4Packet ipv4TaskHandle params malloc) = some n.arp := by
  cases Node.step_moves hn with
  | counted | udp | icmp | tcp => exact .inl rfl
  | arp _ hb hr => exact .inr (.inl ⟨_, hb, hr⟩)
  | ipv4Task _ _ hr => exact .inr (.inr ⟨_, _, hr⟩)

/-- What is known of the ARP components: they send to announced stations, and what has been announced to
    them is true. -/
structure Learned (net : ι → NetContext) (s : Network ι) : Prop where
  announced : ∀ k, Arp.SentAsAnnounced (s k).arp
  truthful : ∀ k data self queued, .arpInput data self queued ∈ (s k).arp.history →
    TruthfulData net data

theorem learned_boot (net : ι → NetContext) : Learned net (boot net) :=
  ⟨fun k => Arp.sentAsAnnounced_boot (net k), fun k => by simp [boot, Node.boot, Arp.boot]⟩

/-- What the nodes say of themselves is true. -/
theorem truthful_of_frame (hnet : Function.Injective fun k => (net k).ip) (hs : NodesRun net s)
    {i : ι} {frame : Frame} (hframe : frame ∈ (s i).frames) {received buffer : Memory}
    {len bufferLen : BitVec 16} (hreceived : Memory.AgreeBelow frame.len.toNat frame.bytes received)
    (hdispatch : dispatch received len = some (.arpInput buffer bufferLen)) :
    TruthfulData net (.read buffer) := by
  obtain ⟨as, hrun, hg⟩ := hs i
  obtain ⟨hethertype, rfl, -⟩ := Node.dispatch_arpInput hdispatch
  rcases Node.frame_of_run hrun hg hframe with harp | ⟨params, haccepted, hencodes⟩
  · have hlen : frame.len.toNat = 42 := congrArg BitVec.toNat harp.length
    obtain ⟨operation, hsender⟩ := harp.sender
    have hload : (bufferData received).load 0 18 =
        Arp.senderFields operation (net i).mac (net i).ip := by
      rw [← hsender, bufferData, bufferData, Memory.load_advance, Memory.load_advance]
      exact hreceived.load (by rw [hlen]; decide)
    obtain ⟨-, -, -, hmac, hip⟩ := Arp.read_senderFields hload
    intro l hl
    obtain rfl : i = l := hnet (hip.symm.trans hl)
    exact hmac
  · rw [Node.ethertype_of_encodes ((Node.merged_of_run hrun).own params haccepted) hencodes
      hreceived] at hethertype
    exact absurd hethertype (by decide)

/-- What a node is told is true. -/
theorem truthful_of_causes (hnet : Function.Injective fun k => (net k).ip) (hs : NodesRun net s)
    (hc : x.Truthful net) {j : ι} {a : NodeAction} {buffer : Memory} {bufferLen : BitVec 16}
    {env : Arp.ArpEnv} (hcauses : Causes s x j a)
    (hb : Node.RunsArp a (.arpInput buffer bufferLen env)) : TruthfulData net (.read buffer) := by
  cases hb with
  | arrived hdispatch =>
      cases hcauses with
      | own hrx => cases hrx
      | delivered hsent _ hreceived => exact truthful_of_frame hnet hs hsent hreceived hdispatch
      | foreign =>
          obtain ⟨hethertype, rfl, -⟩ := Node.dispatch_arpInput hdispatch
          exact hc hethertype

variable [DecidableEq ι]

theorem Learned.step (hnet : Function.Injective fun k => (net k).ip) (hnodes : NodesRun net s)
    (hs : Learned net s) (hc : x.Truthful net) (h : step s x = some s') : Learned net s' := by
  obtain ⟨j, a, n, hcauses, hn, rfl⟩ := step_causes h
  suffices hnode : Arp.SentAsAnnounced n.arp ∧ ∀ data self queued,
      .arpInput data self queued ∈ n.arp.history → TruthfulData net data by
    constructor
    · intro k
      rcases update_apply s j k n with hsame | ⟨rfl, hmoved⟩
      · exact hsame ▸ hs.announced k
      · rw [hmoved]
        exact hnode.1
    · intro k
      rcases update_apply s j k n with hsame | ⟨rfl, hmoved⟩
      · exact hsame ▸ hs.truthful k
      · rw [hmoved]
        exact hnode.2
  rcases arp_of_step hn with hsame | ⟨b, hb, hr⟩ | ⟨params, malloc, hr⟩
  · exact hsame ▸ ⟨hs.announced j, hs.truthful j⟩
  · refine ⟨(hs.announced j).step hr, fun data self queued hmem => ?_⟩
    rcases Arp.step_heard hr with hheard | ⟨buffer, len, env, rfl, hhistory⟩
    · exact hs.truthful j data self queued (hheard data self queued hmem)
    · rw [hhistory] at hmem
      rcases List.mem_append.mp hmem with hold | hnew
      · exact hs.truthful j data self queued hold
      · cases List.mem_singleton.mp hnew
        exact truthful_of_causes hnet hnodes hc hcauses hb
  · refine ⟨(hs.announced j).step hr, fun data self queued hmem => ?_⟩
    rcases Arp.step_heard hr with hheard | ⟨_, _, _, hinput, -⟩
    · exact hs.truthful j data self queued (hheard data self queued hmem)
    · cases hinput

end Network

end NetStack
