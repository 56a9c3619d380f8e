import NetStack.Lib.Machine
import NetStack.Udp.Datagram

/-!
# The component among its tasks

The UDP component as a machine. A step is one iteration of `udp_task` or one call of the public
API by another task. Tasks interleave between steps.
-/

namespace NetStack.Udp
open NetStack.Lib

/-- `allocate_port`. -/
def allocatePort (g : Globals) (port : UdpPort) : Globals × EspErr :=
  match firstIdx fun i => (g.ports i).portNumber == 0 with
  | some i => ({ g with ports := Function.update g.ports i port }, .ok)
  | none => (g, .noMem)

/-- `udp_create_port`. -/
def udpCreatePort (g : Globals) (port : UdpPort) : Globals × EspErr :=
  if port.callback = none then (g, .invalidArg)
  else
    match queueSend portQueueLength g.portQueue port with
    | some queue =>
        ({ g with
            portQueue := queue
            queueSet := setPost queueSetLength g.queueSet .portQueue }, .ok)
    | none => (g, .noMem)

/-- `udp_send`. -/
def udpSend (g : Globals) (params : UdpTransmitParams) : Globals × EspErr :=
  match queueSend sendQueueLength g.sendQueue params with
  | some queue =>
      ({ g with
          sendQueue := queue
          queueSet := setPost queueSetLength g.queueSet .sendQueue }, .ok)
  | none => (g, .noMem)

/-- The component, what it has put into the IPv4 queue, and the ports that it has stored. -/
structure System where
  g : Globals
  transmitted : List Ipv4TransmitParams := []
  stored : List UdpPort := []

/-- The choices of the environment. -/
inductive Action where
  /-- One iteration of `udp_task`; the environment of `udp_send_internal`. -/
  | udpTask (env : SendEnv)
  | udpCreatePort (port : UdpPort)
  | udpSend (params : UdpTransmitParams)

/-- The branch of `udp_task` for the selected queue. -/
def handleSelected (s : System) (handle : QueueHandle) (env : SendEnv) : System :=
  match handle with
  | .portQueue =>
      match s.g.portQueue with
      | [] => s
      | port :: queue =>
          let r := allocatePort { s.g with portQueue := queue } port
          { s with g := r.1, stored := s.stored ++ if r.2 = .ok then [port] else [] }
  | .sendQueue =>
      match s.g.sendQueue with
      | [] => s
      | params :: queue =>
          let r := udpSendInternal s.g.selfNet params env
          { s with
            g := { s.g with sendQueue := queue }
            transmitted := s.transmitted ++ r.1.toList }

/-- One iteration of the loop of `udp_task`, which waits while the set is empty. -/
def udpTaskIteration (s : System) (env : SendEnv) : Option System :=
  match s.g.queueSet with
  | [] => none
  | handle :: set => some (handleSelected { s with g := { s.g with queueSet := set } } handle env)

/-- One step of the component. -/
def step (s : System) : Action → Option System
  | .udpTask env => udpTaskIteration s env
  | .udpCreatePort port => some { s with g := (udpCreatePort s.g port).1 }
  | .udpSend params => some { s with g := (udpSend s.g params).1 }

/-- The component after `udp_init`. -/
def boot (selfNet : NetContext) : System := { g := { selfNet := selfNet } }

end NetStack.Udp
