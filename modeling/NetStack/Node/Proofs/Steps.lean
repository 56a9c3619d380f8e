import NetStack.Node.System

/-!
# What a step of a node does

A step is a step of one component, a packet that `ipv4_task` takes out, or a frame that nobody wants.
`Moves` lists them with what they add to the IPv4 queue, so that no later proof unfolds the step.
-/

namespace NetStack.Node
open NetStack.Lib NetStack.Icmpv4 NetStack.WifiManager

/-- The step of the TCP component that a step of the node is. -/
inductive RunsTcp (s : Node) : NodeAction → Tcp.Action → Prop
  | own {b : Tcp.Action} (hinput : b.isInput = false) : RunsTcp s (.tcp b) b
  | arrived {frame buffer data : Memory} {len bufferLen length : BitVec 16} {eb : Option Nat}
      {env : RxEnv} {src : Ipv4Addr}
      (hdispatch : dispatch frame len = some (.ipv4Input buffer bufferLen))
      (hcall : Ipv4.ipv4Input s.arp.selfNet buffer bufferLen = some (.inputTcp data length src)) :
      RunsTcp s (.wifiRxcb frame len eb env) (.inputTcp data length src env.tcp)

/-- The step of the ARP component that a step of the node is, but for those of `ipv4_task`. -/
inductive RunsArp : NodeAction → Arp.Action → Prop
  | arpTask {env : Arp.ArpTaskEnv} : RunsArp (.arpTask env) (.arpTask env)
  | arpGetMacAddr {task : Arp.TaskHandle} {ip : Ipv4Addr} (htask : task ≠ ipv4TaskHandle) :
      RunsArp (.arpGetMacAddr task ip) (.arpGetMacAddr task ip)
  | resume {k : Nat} {eth : Eth.EthEnv} : RunsArp (.resume k eth) (.resume k eth)
  | arrived {frame buffer : Memory} {len bufferLen : BitVec 16} {eb : Option Nat} {env : RxEnv}
      (hdispatch : dispatch frame len = some (.arpInput buffer bufferLen)) :
      RunsArp (.wifiRxcb frame len eb env) (.arpInput buffer bufferLen env.arp)

/-- What a step of the node does. -/
inductive Moves (s : Node) : NodeAction → Node → Prop
  /-- A frame is counted, and nobody wants it. -/
  | counted {frame : Memory} {len : BitVec 16} {eb : Option Nat} {env : RxEnv} (c : RxCounters) :
      Moves s (.wifiRxcb frame len eb env) { s with counters := c }
  | tcp {a : NodeAction} {b : Tcp.Action} {t : Tcp.System} (c : RxCounters) (hb : RunsTcp s a b)
      (h : Tcp.step s.tcp b = some t) :
      Moves s a ({ s with counters := c, tcp := t }.enqueue
        (Tcp.handedOver (t.g.log.drop s.tcp.g.log.length)))
  | udp {b : Udp.Action} {u : Udp.System} (h : Udp.step s.udp b = some u) :
      Moves s (.udp b) ({ s with udp := u }.enqueue
        (u.transmitted.drop s.udp.transmitted.length))
  | icmp {frame data buffer : Memory} {len dataLen bufferLen : BitVec 16} {eb : Option Nat}
      {env : RxEnv} (c : RxCounters)
      (hdispatch : dispatch frame len = some (.ipv4Input data dataLen))
      (hcall : Ipv4.ipv4Input s.arp.selfNet data dataLen = some (.icmpv4Input buffer bufferLen)) :
      Moves s (.wifiRxcb frame len eb env) ({ s with counters := c }.enqueue
        (icmpv4Input s.arp.selfNet buffer bufferLen env.ping).toList)
  | arp {a : NodeAction} {b : Arp.Action} {r : Arp.System} (c : RxCounters) (hb : RunsArp a b)
      (h : Arp.step s.arp b = some r) : Moves s a { s with counters := c, arp := r }
  | ipv4Task {malloc : Option Memory} {params : Ipv4TransmitParams}
      {rest : List Ipv4TransmitParams} {r : Arp.System} (hfree : s.ipv4TaskWaits = false)
      (hqueue : s.transmitQueue = params :: rest)
      (h : Arp.step s.arp (.internalSendIpv4Packet ipv4TaskHandle params malloc) = some r) :
      Moves s (.ipv4Task malloc) { s with transmitQueue := rest, arp := r }

section Steps
variable {s s' : Node}

theorem stepTcp_some {a : Tcp.Action} (h : s.stepTcp a = some s') :
    ∃ t, Tcp.step s.tcp a = some t ∧
      s' = { s with tcp := t }.enqueue (Tcp.handedOver (t.g.log.drop s.tcp.g.log.length)) := by
  unfold stepTcp at h
  split at h
  case h_1 => cases h
  case h_2 t ht => exact ⟨t, ht, (Option.some.inj h).symm⟩

theorem stepUdp_some {a : Udp.Action} (h : s.stepUdp a = some s') :
    ∃ u, Udp.step s.udp a = some u ∧
      s' = { s with udp := u }.enqueue (u.transmitted.drop s.udp.transmitted.length) := by
  unfold stepUdp at h
  split at h
  case h_1 => cases h
  case h_2 u hu => exact ⟨u, hu, (Option.some.inj h).symm⟩

theorem stepArp_some {a : Arp.Action} (h : s.stepArp a = some s') :
    ∃ r, Arp.step s.arp a = some r ∧ s' = { s with arp := r } := by
  obtain ⟨r, hr, rfl⟩ := Option.map_eq_some_iff.mp h
  exact ⟨r, hr, rfl⟩

/-- A frame is counted and handed to one protocol at most. -/
theorem step_wifiRxcb {frame : Memory} {len : BitVec 16} {eb : Option Nat} {env : RxEnv}
    (h : step s (.wifiRxcb frame len eb env) = some s') :
    ∃ c, (dispatch frame len = none ∧ s' = { s with counters := c }) ∨
      ∃ call, dispatch frame len = some call ∧
        handleRxCall { s with counters := c } env call = some s' := by
  refine ⟨(wifiRxcb s.counters frame len eb).1, ?_⟩
  cases eb <;> cases hdispatch : dispatch frame len <;>
    simpa [step, wifiRxcb, hdispatch, handleRxCall, eq_comm] using h

theorem step_moves {a : NodeAction} (h : step s a = some s') : Moves s a s' := by
  cases a with
  | tcp b =>
      simp only [step] at h
      split at h
      case isTrue => cases h
      case isFalse hinput =>
          obtain ⟨t, ht, rfl⟩ := stepTcp_some h
          exact .tcp s.counters (.own (by simpa using hinput)) ht
  | udp b =>
      obtain ⟨u, hu, rfl⟩ := stepUdp_some h
      exact .udp hu
  | arpTask env =>
      obtain ⟨r, hr, rfl⟩ := stepArp_some h
      exact .arp s.counters .arpTask hr
  | arpGetMacAddr task ip =>
      simp only [step] at h
      split at h
      case isTrue => cases h
      case isFalse htask =>
          obtain ⟨r, hr, rfl⟩ := stepArp_some h
          exact .arp s.counters (.arpGetMacAddr htask) hr
  | ipv4Task malloc =>
      simp only [step] at h
      split at h
      case isTrue => cases h
      case isFalse hfree =>
          split at h
          case h_1 => cases h
          case h_2 params rest hqueue =>
              obtain ⟨r, hr, rfl⟩ := stepArp_some h
              exact .ipv4Task (by simpa using hfree) hqueue hr
  | resume k eth =>
      obtain ⟨r, hr, rfl⟩ := stepArp_some h
      exact .arp s.counters .resume hr
  | wifiRxcb frame len eb env =>
      obtain ⟨c, ⟨-, rfl⟩ | ⟨call, hdispatch, h⟩⟩ := step_wifiRxcb h
      · exact .counted c
      cases call with
      | arpInput buffer bufferLen =>
          obtain ⟨r, hr, rfl⟩ := stepArp_some h
          exact .arp c (.arrived hdispatch) hr
      | ipv4Input buffer bufferLen =>
          simp only [handleRxCall] at h
          split at h
          case h_1 call hcall =>
              cases call with
              | icmpv4Input =>
                  obtain rfl := Option.some.inj h
                  exact .icmp c hdispatch hcall
              | inputTcp =>
                  rw [handleIpv4Call] at h
                  obtain ⟨t, ht, rfl⟩ := stepTcp_some h
                  exact .tcp c (.arrived hdispatch hcall) ht
          case h_2 =>
              obtain rfl := Option.some.inj h
              exact .counted c
      | freeRxBuffer | free =>
          obtain rfl := Option.some.inj h
          exact .counted c

end Steps

/-- A packet for IPv4 is what follows the header of a frame with the ethertype of IPv4. -/
theorem dispatch_ipv4Input {frame buffer : Memory} {len bufferLen : BitVec 16}
    (h : dispatch frame len = some (.ipv4Input buffer bufferLen)) :
    ethertype frame = ipv4Ethertype ∧ buffer = bufferData frame ∧
      bufferLen = bufferDataLen len := by
  unfold dispatch at h
  split_ifs at h with harp hipv4
  · cases Option.some.inj h
  · obtain ⟨rfl, rfl⟩ := RxCall.ipv4Input.inj (Option.some.inj h)
    exact ⟨hipv4, rfl, rfl⟩

/-- A packet for ARP is what follows the header of a frame with the ethertype of ARP. -/
theorem dispatch_arpInput {frame buffer : Memory} {len bufferLen : BitVec 16}
    (h : dispatch frame len = some (.arpInput buffer bufferLen)) :
    ethertype frame = Arp.arpEthertype ∧ buffer = bufferData frame ∧
      bufferLen = bufferDataLen len := by
  unfold dispatch at h
  split_ifs at h with harp hipv4
  · obtain ⟨rfl, rfl⟩ := RxCall.arpInput.inj (Option.some.inj h)
    exact ⟨harp, rfl, rfl⟩
  · cases Option.some.inj h

theorem toNat_bufferDataLen {len : BitVec 16} (h : 14 ≤ len.toNat) :
    (bufferDataLen len).toNat = len.toNat - 14 := by
  have hbound := len.isLt
  rw [bufferDataLen, BitVec.toNat_sub]
  change (2 ^ 16 - 14 + len.toNat) % 2 ^ 16 = _
  omega

end NetStack.Node
