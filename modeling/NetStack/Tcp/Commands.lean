import NetStack.Tcp.Send

/-!
# The port commands

`tcp_task` executes the commands that `tcp_connect_port`, `tcp_listen_port` and
`tcp_close_port` queue. A slot whose `self_port_num` is 0 counts as unused.
-/

namespace NetStack.Tcp
open NetStack.Lib

/-- The slot `allocate_port` overwrites. -/
def findUnusedPort (g : Globals) : Option PortIdx :=
  firstIdx fun i => (g.ports i).selfPortNum == 0

/-- The port `tcp_create_port_internal` builds; `handle` is its new semaphore. -/
def newPort (srcPortNum : BitVec 16) (handle : Nat) (onReceive onConnect onDisconnect : Option FnPtr) :
    TcpPort where
  selfPortNum := srcPortNum
  selfWindow := 1500
  unackedSlots := some (CountingSemaphore.create maxUnacked handle)
  onReceive := onReceive
  onConnect := onConnect
  onDisconnect := onDisconnect

/-- `tcp_create_port_internal` with `allocate_port`. The environment decides whether the
    semaphore can be created; without a free slot the new semaphore is lost. -/
def tcpCreatePortInternal (g : Globals) (srcPortNum : BitVec 16)
    (onReceive onConnect onDisconnect : Option FnPtr) (semaphore : Bool) :
    Globals × Option PortIdx :=
  if semaphore then
    let created := { g with nextAddr := g.nextAddr + 1 }
    match findUnusedPort g with
    | some i =>
        (created.setPort i (newPort srcPortNum g.nextAddr onReceive onConnect onDisconnect), some i)
    | none => (created, none)
  else (g, none)

/-- The assignments of `tcp_connect_port_internal` to the new port. -/
def connectingPort (port : TcpPort) (dstPortNum : BitVec 16) (dstIpv4Addr : Ipv4Addr) : TcpPort :=
  { port with
    otherIpv4Addr := dstIpv4Addr
    otherPortNum := dstPortNum
    state := .synSent }

/-- `syn_request`. -/
def synRequest (port : TcpPort) (dstIpv4Addr : Ipv4Addr) : TcpTransmitParams where
  dstIpv4Addr := dstIpv4Addr
  srcPort := port.selfPortNum
  dstPort := port.otherPortNum
  seqNum := port.seqNum
  control := SYN

/-- `tcp_connect_port_internal`. -/
def tcpConnectPortInternal (g : Globals) (srcPortNum dstPortNum : BitVec 16)
    (dstIpv4Addr : Ipv4Addr) (onReceive onConnect onDisconnect : Option FnPtr)
    (semaphore : Bool) : Outcome EspErr :=
  let r := tcpCreatePortInternal g srcPortNum onReceive onConnect onDisconnect semaphore
  match r.2 with
  | none => .done r.1 .fail
  | some i =>
      let port := connectingPort (r.1.ports i) dstPortNum dstIpv4Addr
      tcpEnqueueReliable (r.1.setPort i port) (synRequest port dstIpv4Addr) portMaxDelay

/-- `tcp_listen_port_internal`. -/
def tcpListenPortInternal (g : Globals) (srcPortNum : BitVec 16)
    (onReceive onConnect onDisconnect : Option FnPtr) (semaphore : Bool) : Globals × EspErr :=
  let r := tcpCreatePortInternal g srcPortNum onReceive onConnect onDisconnect semaphore
  match r.2 with
  | none => (r.1, .fail)
  | some i =>
      (r.1.setPort i { r.1.ports i with state := .listen, otherIpv4Addr := ipv4AllZeroes }, .ok)

/-- `fin_request`. -/
def finRequest (port : TcpPort) (dstIpv4Addr : Ipv4Addr) : TcpTransmitParams where
  dstIpv4Addr := dstIpv4Addr
  srcPort := port.selfPortNum
  dstPort := port.otherPortNum
  seqNum := port.seqNum
  control := FIN

/-- `tcp_close_port_internal`. -/
def tcpClosePortInternal (g : Globals) (srcPortNum dstPortNum : BitVec 16)
    (dstIpv4Addr : Ipv4Addr) : Outcome EspErr :=
  match findPort g srcPortNum dstPortNum dstIpv4Addr with
  | none => .done g .invalidArg
  | some i =>
      tcpEnqueueReliable (g.setState i .finWait1) (finRequest (g.ports i) dstIpv4Addr)
        portMaxDelay

end NetStack.Tcp
