import NetStack.Arp.Encoding
import NetStack.Arp.System
import NetStack.Ipv4.Input
import NetStack.Ipv4.Task
import NetStack.Udp.System
import NetStack.WifiManager.Receive

/-!
# A node

The components of one device with what connects them: `ipv4_transmit_queue`, into which TCP, UDP and
ICMP put their packets, `ipv4_task`, which takes them out and waits in `arp_get_mac_addr` for each, and
`wifi_rxcb`, which hands what arrives to the components. A step is a step of one component, the part of
an iteration of `ipv4_task` before or behind its wait, or a call of `wifi_rxcb`; the tasks interleave
between steps. Whether a packet finds room in the queue is up to the environment of the component that
sends it, so that any length of the queue is covered.

`self_net` is one common variable of the protocols, so that all of them get the addresses that
`wifi_begin` sets. An image without UDP is a node in which UDP takes no step.
-/

namespace NetStack.Tcp

/-- The call of `input_tcp`, which is the driver's. -/
def Action.isInput : Action → Bool
  | .inputTcp _ _ _ _ => true
  | _ => false

end NetStack.Tcp

namespace NetStack
open NetStack.Lib NetStack.Eth NetStack.Icmpv4 NetStack.WifiManager

/-- What tells `ipv4_task` from the other tasks. -/
def ipv4TaskHandle : Arp.TaskHandle := 0

/-- The components, the IPv4 queue, the counters of the driver's callback, and everything that has ever
    entered the queue, which nothing reads. -/
structure Node where
  tcp : Tcp.System
  udp : Udp.System
  arp : Arp.System
  transmitQueue : List Ipv4TransmitParams := []
  counters : RxCounters := {}
  accepted : List Ipv4TransmitParams := []

/-- What the environment decides in one call of `wifi_rxcb`: the choices of `arp_input`, those of
    `send_icmpv4_ping_reply`, and the block that `input_tcp` copies to. -/
structure RxEnv where
  arp : Arp.ArpEnv
  ping : PingEnv
  tcp : Option Memory

/-- The choices of the environment. -/
inductive NodeAction where
  /-- A step of the TCP component, but for `input_tcp`. -/
  | tcp (a : Tcp.Action)
  | udp (a : Udp.Action)
  /-- One iteration of `arp_task`. -/
  | arpTask (env : Arp.ArpTaskEnv)
  /-- Another task than `ipv4_task` calls `arp_get_mac_addr`. -/
  | arpGetMacAddr (task : Arp.TaskHandle) (ip : Ipv4Addr)
  /-- `ipv4_task` takes a packet out of its queue; the block that `malloc` returns for it. -/
  | ipv4Task (malloc : Option Memory)
  /-- The `k`-th task that waits in `arp_get_mac_addr` returns from `ulTaskNotifyTake`. -/
  | resume (k : Nat) (eth : EthEnv)
  | wifiRxcb (frame : Memory) (len : BitVec 16) (eb : Option Nat) (env : RxEnv)

namespace Node

/-- Packets enter the IPv4 queue. -/
def enqueue (s : Node) (packets : List Ipv4TransmitParams) : Node :=
  { s with transmitQueue := s.transmitQueue ++ packets, accepted := s.accepted ++ packets }

/-- A step of the ARP component. -/
def stepArp (s : Node) (a : Arp.Action) : Option Node := (Arp.step s.arp a).map ({ s with arp := · })

/-- A step of the TCP component, with what it puts into the IPv4 queue. -/
def stepTcp (s : Node) (a : Tcp.Action) : Option Node :=
  match Tcp.step s.tcp a with
  | none => none
  | some t => some ({ s with tcp := t }.enqueue (Tcp.handedOver (t.g.log.drop s.tcp.g.log.length)))

/-- A step of the UDP component, with what it puts into the IPv4 queue. -/
def stepUdp (s : Node) (a : Udp.Action) : Option Node :=
  match Udp.step s.udp a with
  | none => none
  | some u => some ({ s with udp := u }.enqueue (u.transmitted.drop s.udp.transmitted.length))

/-- `ipv4_task` waits in `arp_get_mac_addr`. -/
def ipv4TaskWaits (s : Node) : Bool := s.arp.callers.any (·.request.task == ipv4TaskHandle)

/-- What a call that `ipv4_input` makes does. -/
def handleIpv4Call (s : Node) (env : RxEnv) : Ipv4.Ipv4Call → Option Node
  | .icmpv4Input buffer bufferLen =>
      some (s.enqueue (icmpv4Input s.arp.selfNet buffer bufferLen env.ping).toList)
  | .inputTcp buffer length src => s.stepTcp (.inputTcp buffer length src env.tcp)

/-- What a call that `wifi_rxcb` makes does. -/
def handleRxCall (s : Node) (env : RxEnv) : RxCall → Option Node
  | .arpInput buffer len => s.stepArp (.arpInput buffer len env.arp)
  | .ipv4Input buffer len =>
      match Ipv4.ipv4Input s.arp.selfNet buffer len with
      | some call => s.handleIpv4Call env call
      | none => some s
  | .freeRxBuffer _ | .free => some s

/-- One step of the node. -/
def step (s : Node) : NodeAction → Option Node
  | .tcp a => if a.isInput then none else s.stepTcp a
  | .udp a => s.stepUdp a
  | .arpTask env => s.stepArp (.arpTask env)
  | .arpGetMacAddr task ip =>
      if task = ipv4TaskHandle then none else s.stepArp (.arpGetMacAddr task ip)
  | .ipv4Task malloc =>
      if s.ipv4TaskWaits then none
      else
        match s.transmitQueue with
        | [] => none
        | params :: rest =>
            { s with transmitQueue := rest }.stepArp
              (.internalSendIpv4Packet ipv4TaskHandle params malloc)
  | .resume k eth => s.stepArp (.resume k eth)
  | .wifiRxcb frame len eb env =>
      let r := wifiRxcb s.counters frame len eb
      r.2.foldlM (·.handleRxCall env ·) { s with counters := r.1 }

/-- The node after `wifi_begin` and `udp_init`; all components get the same addresses. -/
def boot (selfNet : NetContext) : Node where
  tcp := Tcp.boot selfNet
  udp := Udp.boot selfNet
  arp := Arp.boot selfNet

end Node

/-- The frame that a call of `internal_send_ipv4_packet` has handed to the driver. -/
def Arp.NodeEvent.frame? : Arp.NodeEvent → Option Frame
  | .sent _ result => result.frame
  | .arpInput _ _ _ => none

/-- The packet that a call of `internal_send_ipv4_packet` was given. -/
def Arp.NodeEvent.packet? : Arp.NodeEvent → Option Ipv4TransmitParams
  | .sent params _ => some params
  | .arpInput _ _ _ => none

namespace Node

/-- The frames that ARP has handed to the driver. -/
def arpFrames (s : Node) : List Frame := s.arp.arp.log.filterMap Arp.ArpEvent.frame?

/-- The frames that IPv4 has handed to the driver. -/
def ipv4Frames (s : Node) : List Frame := s.arp.history.filterMap Arp.NodeEvent.frame?

/-- The frames that the node has handed to the driver. -/
def frames (s : Node) : List Frame := s.arpFrames ++ s.ipv4Frames

/-- The packets that `ipv4_task` is done with, in the order in which it has taken them out. -/
def finished (s : Node) : List Ipv4TransmitParams := s.arp.history.filterMap Arp.NodeEvent.packet?

/-- The packets that tasks wait with. -/
def waitingPackets (callers : List Arp.ArpCaller) : List Ipv4TransmitParams :=
  callers.filterMap fun c => c.packet.map (·.1)

/-- The packet that `ipv4_task` has taken out and waits with. -/
def inHand (s : Node) : List Ipv4TransmitParams := waitingPackets s.arp.callers

end Node

end NetStack
