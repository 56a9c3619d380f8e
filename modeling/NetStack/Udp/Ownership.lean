import NetStack.Udp.System

/-!
# The heap blocks of the component

A payload passes from the caller of `udp_send` to `udp_task`, and a datagram from `udp_task` to
IPv4. `HeapSystem` is the component with a history of what happens to these blocks, which nothing
reads. The address of a block tells it from every other block that ever existed: a caller passes
a block that it owns, and `malloc` returns one that nobody does.
-/

namespace NetStack
open NetStack.Lib

/-- What happens to a heap block, known by its address. -/
inductive HeapEvent where
  /-- The block is passed to `udp_send` as `params->data`. -/
  | pass (addr : Nat)
  | malloc (addr : Nat)
  | free (addr : Nat)
  /-- The block is put into `ipv4_transmit_queue`. -/
  | handOver (addr : Nat)
  deriving DecidableEq, Repr

/-- The block of an event. -/
def HeapEvent.addr : HeapEvent → Nat
  | .pass addr | .malloc addr | .free addr | .handOver addr => addr

/-- The event at a data pointer; nothing happens to `NULL`. -/
def onBlock (event : Nat → HeapEvent) (data : Option Block) : List HeapEvent :=
  match data with
  | none => []
  | some block => [event block.addr]

end NetStack

namespace NetStack.Udp
open NetStack.Lib

/-- What a call has done when it returns: to the heap, in this order, and to the IPv4 queue; and
    its result. -/
structure Effects where
  heap : List HeapEvent
  queued : Option Ipv4TransmitParams
  result : EspErr

/-- `send_ipv4_packet`: the environment says whether the queue exists and has room. -/
def sendIpv4Packet (params : Ipv4TransmitParams) (accepts : Bool) : Effects :=
  if accepts then ⟨onBlock .handOver params.data, some params, .ok⟩
  else ⟨onBlock .free params.data, none, .fail⟩

/-- `udp_send_internal` with what it does to the heap. -/
def udpSendInternalEffects (selfNet : NetContext) (params : UdpTransmitParams) (env : SendEnv) :
    Effects :=
  match env.malloc with
  | none => ⟨[], none, .noMem⟩
  | some block =>
      let copied :=
        match params.data with
        | some data => if params.dataLen > 0 then onBlock .free (some data) else []
        | none => []
      let sent := sendIpv4Packet
        { srcIpv4Addr := selfNet.ip
          dstIpv4Addr := params.dstIpv4Addr
          protocol := udpProtocolNumber
          data := some ⟨block.addr, buildDatagram block.bytes params⟩
          dataLen := udpHeaderSize + params.dataLen } env.ipv4Accepts
      { sent with heap := .malloc block.addr :: (copied ++ sent.heap) }

/-- Both accounts of `udp_send_internal` give the same. -/
theorem udpSendInternalEffects_eq (selfNet : NetContext) (params : UdpTransmitParams)
    (env : SendEnv) :
    ((udpSendInternalEffects selfNet params env).queued,
        (udpSendInternalEffects selfNet params env).result) =
      udpSendInternal selfNet params env := by
  obtain ⟨malloc, ipv4Accepts⟩ := env
  cases malloc with
  | none => rfl
  | some block => cases ipv4Accepts <;> rfl

/-- The request that an iteration of `udp_task` takes out of `send_queue`, if any. -/
def dequeued (g : Globals) : Option UdpTransmitParams :=
  match g.queueSet with
  | .sendQueue :: _ => g.sendQueue.head?
  | _ => none

/-- The component, the next unused block address, and the history of the heap. -/
structure HeapSystem where
  udp : System
  nextAddr : Nat := 0
  heap : List HeapEvent := []

/-- The choices of the environment: what a caller passes, and what `malloc` finds in the block that it
    returns (`none` when it fails). -/
inductive HeapAction where
  | udpSend (srcPort dstPort : BitVec 16) (dstIpv4Addr : Ipv4Addr) (data : Option Memory)
      (dataLen : BitVec 16)
  | udpCreatePort (port : UdpPort)
  | udpTask (malloc : Option Memory) (ipv4Accepts : Bool)

namespace HeapSystem

/-- What a block that comes into being is known by. -/
def newBlock (s : HeapSystem) (contents : Option Memory) : Option Block :=
  contents.map fun bytes => ⟨s.nextAddr, bytes⟩

/-- What the iteration of `udp_task` does to the heap. -/
def taskHeap (s : HeapSystem) (env : SendEnv) : List HeapEvent :=
  match dequeued s.udp.g with
  | none => []
  | some params => (udpSendInternalEffects s.udp.g.selfNet params env).heap

/-- One step of the component. -/
def step (s : HeapSystem) : HeapAction → Option HeapSystem
  | .udpSend srcPort dstPort dstIpv4Addr data dataLen =>
      let params : UdpTransmitParams :=
        ⟨srcPort, dstPort, dstIpv4Addr, s.newBlock data, dataLen⟩
      -- `udp_send` frees nothing, whether it fails or not
      (Udp.step s.udp (.udpSend params)).map fun udp =>
        { udp := udp
          nextAddr := s.nextAddr + 1
          heap := s.heap ++ onBlock .pass params.data }
  | .udpCreatePort port =>
      (Udp.step s.udp (.udpCreatePort port)).map fun udp => { s with udp := udp }
  | .udpTask malloc ipv4Accepts =>
      let env : SendEnv := ⟨s.newBlock malloc, ipv4Accepts⟩
      (Udp.step s.udp (.udpTask env)).map fun udp =>
        { udp := udp
          nextAddr := s.nextAddr + 1
          heap := s.heap ++ s.taskHeap env }

/-- The component after `udp_init`. -/
def boot (selfNet : NetContext) : HeapSystem := { udp := Udp.boot selfNet }

end HeapSystem

end NetStack.Udp
