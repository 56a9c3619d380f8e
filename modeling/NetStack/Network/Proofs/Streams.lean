import NetStack.Network.Proofs.Steps
import NetStack.Node.Proofs.Deliveries
import NetStack.Tcp.Proofs.Reading

/-!
# What is read is what was sent

Two nodes of a network, one of which has a connection to the other. Whatever the link does to the frames
of all nodes, and whatever other stations send as long as they do not claim the sender's address, what
the receiving application has got is the beginning of what the sending one has sent.
-/

namespace NetStack
open NetStack.Lib NetStack.Eth NetStack.WifiManager

/-- The frame carries an IPv4 packet that claims to come from `ip`. -/
def claims (ip : Ipv4Addr) (frame : Memory) : Bool :=
  ethertype frame == ipv4Ethertype && (Ipv4Header.read (bufferData frame)).srcIpv4Addr == ip

/-- No application asks for more than a frame can hold, and every frame of another station is long enough
    for the header of a frame. -/
def NetworkAction.fits {ι : Type} : NetworkAction ι → Bool
  | .node _ a => a.fits
  | .deliver _ _ _ _ _ _ _ => true
  | .foreign _ _ len _ _ => 14 ≤ len.toNat

/-- Every payload of an application is what its length says. -/
def NodeAction.isBacked : NodeAction → Bool
  | .tcp b => Tcp.payloadBacked b
  | _ => true

/-- Port `p` of a node takes no bytes before its handshake is over. -/
def Node.bareHandshake (p : Tcp.PortIdx) (s : Node) : NodeAction → Bool
  | .tcp b => Tcp.bareHandshake p s.tcp b
  | _ => true

namespace Network
variable {ι : Type} {net : ι → NetContext} {s s' : Network ι} {x : NetworkAction ι}
  {xs : List (NetworkAction ι)} {i j : ι} {p : Tcp.PortIdx}

/-- Every node runs as it would alone. -/
def NodesRun (net : ι → NetContext) (s : Network ι) : Prop :=
  ∀ k, ∃ as, run Node.step (Node.boot (net k)) as = some (s k) ∧
    Guarded Node.step (fun _ a => a.fits = true) (Node.boot (net k)) as

theorem nodesRun_boot (net : ι → NetContext) : NodesRun net (boot net) := fun _ => ⟨[], rfl, trivial⟩

/-- A frame is at least as long as its header. -/
theorem header_le_of_frame {frame : Frame} (hs : NodesRun net s) (hframe : frame ∈ (s i).frames) :
    14 ≤ frame.len.toNat := by
  obtain ⟨as, hrun, hg⟩ := hs i
  rcases Node.frame_of_run hrun hg hframe with harp | ⟨params, haccepted, hencodes⟩
  · have hlen : frame.len.toNat = 42 := congrArg BitVec.toNat harp.length
    omega
  · have hlen := hencodes.length ((Node.merged_of_run hrun).own params haccepted)
    omega

theorem fits_of_causes {a : NodeAction} (hs : NodesRun net s) (hc : x.fits = true)
    (hcauses : Causes s x j a) : a.fits = true := by
  cases hcauses with
  | own | foreign => exact hc
  | delivered hsent hlen _ =>
      have hheader := header_le_of_frame hs hsent
      simp only [NodeAction.fits, decide_eq_true_eq]
      omega

/-- The TCP component of a node, seen from the network. -/
theorem tcp_of_step {a : NodeAction} {n : Node} (hn : Node.step (s j) a = some n) :
    n.tcp = (s j).tcp ∨ ∃ b, Node.RunsTcp (s j) a b ∧ Tcp.step (s j).tcp b = some n.tcp := by
  cases Node.step_moves hn with
  | counted | udp | icmp | arp | ipv4Task => exact .inl rfl
  | tcp _ hb ht => exact .inr ⟨_, hb, ht⟩

variable [DecidableEq ι]

theorem NodesRun.step (hs : NodesRun net s) (hc : x.fits = true) (h : step s x = some s') :
    NodesRun net s' := by
  obtain ⟨j, a, n, hcauses, hn, rfl⟩ := step_causes h
  intro k
  by_cases hk : k = j
  · subst hk
    obtain ⟨as, hrun, hg⟩ := hs k
    refine ⟨as ++ [a], by simp [run_append, hrun, run_cons, hn], ?_⟩
    exact (guarded_append hrun).mpr ⟨hg, guarded_cons.mpr ⟨fits_of_causes hs hc hcauses,
      fun _ _ => trivial⟩⟩
  · simpa [hk] using hs k

/-! ### The two ends of a connection -/

/-- The step is one of the runs that are considered: on every node the requests of the applications fit
    into frames, and the frames of other stations have headers; the connections of the sender `i` have
    different keys and its payloads are what their lengths say, port `p` of the receiver `j` takes no
    bytes before its handshake is over, and no other station claims the address of the sender to it. -/
def allows (net : ι → NetContext) (i j : ι) (p : Tcp.PortIdx) (s : Network ι) (x : NetworkAction ι) :
    Bool :=
  x.fits && decide (Tcp.PortsApart (s i).tcp.g) &&
    match x with
    | .node k a => (k != i || a.isBacked) && (k != j || (s j).bareHandshake p a)
    | .deliver _ _ _ _ _ _ _ => true
    | .foreign k frame _ _ _ => k != j || !claims (net i).ip frame

/-- The run of the sending TCP component. -/
def Sender (net : ι → NetContext) (i : ι) (s : Network ι) : Prop :=
  ∃ as, run Tcp.step (Tcp.boot (net i)) as = some (s i).tcp ∧
    Guarded Tcp.step (Tcp.sendsWhole · ·) (Tcp.boot (net i)) as

/-- The run of the receiving TCP component: what comes from the sender has been sent by it. -/
def Receiver (net : ι → NetContext) (i j : ι) (p : Tcp.PortIdx) (s : Network ι) : Prop :=
  ∃ bs, run Tcp.step (Tcp.boot (net j)) bs = some (s j).tcp ∧
    Guarded Tcp.step (fun t b =>
      Tcp.ComesFrom (Tcp.transmissions (s i).tcp.g.log) (net i).ip (net j).ip b ∧
        Tcp.bareHandshake p t b = true) (Tcp.boot (net j)) bs

section Allowed
variable (hc : allows net i j p s x = true)
include hc

theorem fits_of_allows : x.fits = true := by
  simp only [allows, Bool.and_eq_true] at hc
  exact hc.1.1

theorem portsApart_of_allows : Tcp.PortsApart (s i).tcp.g := by
  simp only [allows, Bool.and_eq_true, decide_eq_true_eq] at hc
  exact hc.1.2

theorem backed_of_allows {b : Tcp.Action} (hx : x = .node i (.tcp b)) :
    Tcp.payloadBacked b = true := by
  simp only [allows, hx, Bool.and_eq_true] at hc
  simpa [NodeAction.isBacked] using hc.2.1

theorem bareHandshake_of_allows {b : Tcp.Action} (hx : x = .node j (.tcp b)) :
    Tcp.bareHandshake p (s j).tcp b = true := by
  simp only [allows, hx, Bool.and_eq_true] at hc
  simpa [Node.bareHandshake] using hc.2.2

theorem not_claims_of_allows {frame : Memory} {len : BitVec 16} {eb : Option Nat} {env : RxEnv}
    (hx : x = .foreign j frame len eb env) : claims (net i).ip frame = false := by
  simp only [allows, hx, Bool.and_eq_true] at hc
  simpa using hc.2

end Allowed

/-- A step of one node of a network. -/
theorem update_apply (s : Network ι) (k l : ι) (n : Node) :
    Function.update s k n l = s l ∨ k = l ∧ Function.update s k n l = n := by
  by_cases hl : k = l
  · subst hl
    exact .inr ⟨rfl, Function.update_self ..⟩
  · exact .inl (Function.update_of_ne (Ne.symm hl) ..)

theorem Sender.step (hs : Sender net i s) (hc : allows net i j p s x = true)
    (h : step s x = some s') : Sender net i s' := by
  obtain ⟨k, a, n, hcauses, hn, rfl⟩ := step_causes h
  obtain ⟨as, hrun, hg⟩ := hs
  rcases update_apply s k i n with hsame | ⟨rfl, hmoved⟩
  · exact ⟨as, by rw [hsame]; exact hrun, hg⟩
  rw [Sender, hmoved]
  rcases tcp_of_step hn with hsame | ⟨b, hb, ht⟩
  · exact ⟨as, by rw [hsame]; exact hrun, hg⟩
  · refine ⟨as ++ [b], by simp [run_append, hrun, run_cons, ht], ?_⟩
    refine (guarded_append hrun).mpr ⟨hg, guarded_cons.mpr ⟨?_, fun _ _ => trivial⟩⟩
    refine Bool.and_eq_true_iff.mpr ⟨decide_eq_true (portsApart_of_allows hc), ?_⟩
    cases hb with
    | own =>
        cases hcauses with
        | own => exact backed_of_allows hc rfl
    | arrived => rfl

theorem sent_mono {k : ι} {a : NodeAction} {n : Node} (hn : Node.step (s k) a = some n) (l : ι) :
    Tcp.transmissions (s l).tcp.g.log ⊆
      Tcp.transmissions (Function.update s k n l).tcp.g.log := by
  rcases update_apply s k l n with hsame | ⟨rfl, hmoved⟩
  · rw [hsame]
    exact List.Subset.refl _
  rw [hmoved]
  rcases tcp_of_step hn with hsame | ⟨b, -, ht⟩
  · rw [hsame]
    exact List.Subset.refl _
  · obtain ⟨added, hlog, -⟩ := Tcp.step_logGrows ht
    rw [hlog, Tcp.transmissions, Tcp.transmissions, List.filterMap_append]
    exact List.subset_append_left _ _

theorem ComesFrom.mono {sent sent' : List Tcp.Transmission} {src dst : Ipv4Addr} {b : Tcp.Action}
    (hsub : sent ⊆ sent') (h : Tcp.ComesFrom sent src dst b) : Tcp.ComesFrom sent' src dst b := by
  cases b with
  | inputTcp buffer length addr malloc =>
      cases malloc with
      | none => trivial
      | some heap =>
          intro haddr
          obtain ⟨t, ht, hdelivers⟩ := h haddr
          exact ⟨t, hsub ht, hdelivers⟩
  | _ => trivial

/-- The source of what TCP gets is the one that the packet claims. -/
theorem src_of_ipv4Input {selfNet : NetContext} {buffer data : Memory}
    {bufferLen length : BitVec 16} {src : Ipv4Addr}
    (h : Ipv4.ipv4Input selfNet buffer bufferLen = some (.inputTcp data length src)) :
    (Ipv4Header.read buffer).srcIpv4Addr = src := by
  obtain ⟨-, hdispatch⟩ := Ipv4.ipv4Input_eq_some_iff.mp h
  unfold Ipv4.dispatchProtocol at hdispatch
  split_ifs at hdispatch
  · cases Option.some.inj hdispatch
  · exact (Ipv4.Ipv4Call.inputTcp.inj (Option.some.inj hdispatch)).2.2

/-- Whatever the receiving TCP component is given in the name of the sender has been sent by it. -/
theorem comesFrom_of_causes (hnet : Function.Injective fun k => (net k).ip) (hs : NodesRun net s)
    (hc : allows net i j p s x = true) {a : NodeAction} {b : Tcp.Action} (hcauses : Causes s x j a)
    (hb : Node.RunsTcp (s j) a b) :
    Tcp.ComesFrom (Tcp.transmissions (s i).tcp.g.log) (net i).ip (net j).ip b := by
  cases hb with
  | own hinput => cases b <;> simp_all [Tcp.ComesFrom, Tcp.Action.isInput]
  | @arrived frame buffer data len bufferLen length eb env src hdispatch hcall =>
      cases hmalloc : env.tcp with
      | none => trivial
      | some heap =>
          intro hsrc
          cases hcauses with
          | own hrx => cases hrx
          | @delivered k _ _ _ _ _ _ _ f hsent hlen hreceived =>
              obtain ⟨as, hrun, hg⟩ := hs k
              obtain ⟨bs, hrun', -⟩ := hs j
              rw [(Node.merged_of_run hrun').arp] at hcall
              obtain ⟨hsrc', t, ht, hdst, hdelivers⟩ :=
                Node.delivers_of_frame hrun hg hsent hreceived hdispatch hcall
              obtain rfl : k = i := hnet (hsrc'.symm.trans hsrc)
              exact ⟨t, ht, hdst, hdelivers⟩
          | foreign =>
              have hnot := not_claims_of_allows hc rfl
              obtain ⟨hethertype, rfl, -⟩ := Node.dispatch_ipv4Input hdispatch
              simp [claims, hethertype, src_of_ipv4Input hcall, hsrc] at hnot

theorem bareHandshake_of_causes (hc : allows net i j p s x = true) {a : NodeAction} {b : Tcp.Action}
    (hcauses : Causes s x j a) (hb : Node.RunsTcp (s j) a b) :
    Tcp.bareHandshake p (s j).tcp b = true := by
  cases hb with
  | own =>
      cases hcauses with
      | own => exact bareHandshake_of_allows hc rfl
  | arrived => rfl

theorem Receiver.step (hnet : Function.Injective fun k => (net k).ip) (hnodes : NodesRun net s)
    (hs : Receiver net i j p s) (hc : allows net i j p s x = true) (h : step s x = some s') :
    Receiver net i j p s' := by
  obtain ⟨k, a, n, hcauses, hn, rfl⟩ := step_causes h
  obtain ⟨bs, hrun, hg⟩ := hs
  have hsub := sent_mono hn i
  have hg := hg.mono (D := fun t b =>
    Tcp.ComesFrom (Tcp.transmissions (Function.update s k n i).tcp.g.log) (net i).ip (net j).ip b ∧
      Tcp.bareHandshake p t b = true) fun _ _ h => ⟨ComesFrom.mono hsub h.1, h.2⟩
  rcases update_apply s k j n with hsame | ⟨rfl, hmoved⟩
  · exact ⟨bs, by rw [hsame]; exact hrun, hg⟩
  rcases tcp_of_step hn with hsame | ⟨b, hb, ht⟩
  · exact ⟨bs, by rw [hmoved, hsame]; exact hrun, hg⟩
  · refine ⟨bs ++ [b], by rw [hmoved]; simp [run_append, hrun, run_cons, ht], ?_⟩
    refine (guarded_append hrun).mpr ⟨hg, guarded_cons.mpr ⟨⟨?_, ?_⟩, fun _ _ => trivial⟩⟩
    · exact ComesFrom.mono hsub (comesFrom_of_causes hnet hnodes hc hcauses hb)
    · exact bareHandshake_of_causes hc hcauses hb

/-- Two hosts. -/
def hosts : Bool → NetContext := fun i => if i then Node.hostOf 2 else Node.hostOf 1

/-- `eth_tx` finds memory, and the driver takes the frame. -/
def ethSends : EthEnv := ⟨some fun _ => 0, .ok⟩

def arpTaskAt (now : BitVec 32) (i : Bool) : NetworkAction Bool :=
  .node i (.arpTask ⟨now, now, fun _ => 0, ethSends⟩)

def tcpTaskOf (i : Bool) : NetworkAction Bool :=
  .node i (.tcp (.tcpTask ⟨⟨some fun _ => 0, true⟩, fun _ _ => ⟨some fun _ => 0, true⟩, true⟩))

/-- `ipv4_task` sends a packet to a host whose address is cached. -/
def sendsPacket (i : Bool) : List (NetworkAction Bool) :=
  [.node i (.ipv4Task (some fun _ => 0)), arpTaskAt 0 i, arpTaskAt 100 i,
    .node i (.resume 0 ethSends)]

/-- A frame arrives with padding, and `tcp_task` runs. -/
def arrivesFrom (i : Bool) (k : Nat) : List (NetworkAction Bool) :=
  [.deliver i (!i) k (fun _ => 0) 60 none Node.rxEnv, tcpTaskOf !i]

/-- The hosts know each other's addresses; the first connects to the second and sends three bytes. -/
def sendsThreeBytes : List (NetworkAction Bool) :=
  [.foreign false (Node.arpReplyFrame 1 2) 42 none Node.rxEnv, arpTaskAt 0 false,
    .foreign true (Node.arpReplyFrame 2 1) 42 none Node.rxEnv, arpTaskAt 0 true,
    .node true (.tcp (.tcpListenPort 80 (some 1) (some 2) (some 3))), tcpTaskOf true,
    .node false (.tcp (.tcpConnectPort 5000 80 ⟨10, 0, 0, 2⟩ (some 1) (some 2) (some 3))),
    tcpTaskOf false, tcpTaskOf false] ++
  sendsPacket false ++ arrivesFrom false 1 ++ [tcpTaskOf true] ++
  sendsPacket true ++ arrivesFrom true 1 ++ [tcpTaskOf false] ++
  sendsPacket false ++ arrivesFrom false 3 ++
  [.node false (.tcp (.tcpSend false 5000 80 ⟨10, 0, 0, 2⟩ (some fun _ => 7) 3 0)),
    tcpTaskOf false] ++
  sendsPacket false ++ arrivesFrom false 5

end Network

end NetStack
