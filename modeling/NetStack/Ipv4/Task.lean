import NetStack.Ipv4.Transmit
import NetStack.Tcp.System

/-!
# The component with the task behind it

`Stack` is the TCP component with `ipv4_transmit_queue` and `ipv4_task`. The two tasks share the
queue only: a step of the component puts the datagrams that `send_ipv4_packet` has accepted at its
end, a step of `ipv4_task` takes its oldest item. Beside them the stack records which blocks have
been created and what becomes of them, which nothing reads. The accepted datagrams are those that
the component's environment has accepted, so that any length of the queue is covered.
-/

namespace NetStack.Tcp
open NetStack.Lib

/-- The token behind a data pointer: the address of its block. -/
def tokens (data : Option Block) : List Nat := (data.map (·.addr)).toList

@[simp] theorem tokens_none : tokens none = [] := rfl

/-- What IPv4 takes over at an event. -/
def Event.handedOver : Event → List Ipv4TransmitParams
  | .transmit t => if t.accepted then [t.ipv4] else []
  | _ => []

/-- The items that have entered the IPv4 queue. -/
def handedOver (log : List Event) : List Ipv4TransmitParams := log.flatMap Event.handedOver

/-- The payload that comes into being at a step: the data of a call of `tcp_send`. -/
def payloadOf (s : System) : Action → List Nat
  | .tcpSend _ _ _ _ (some bytes) _ _ => tokens (some ⟨s.g.nextAddr, bytes⟩)
  | _ => []

/-- The payload that stays in the hand of its caller, because `tcp_task` waits in the call of
    `tcp_send` that a callback has made. -/
def heldByCaller (s : System) (a : Action) (s' : System) : List Nat :=
  if s'.tcpTask = s.tcpTask then [] else payloadOf s a

end NetStack.Tcp

namespace NetStack
open NetStack.Lib

/-- The component, the IPv4 queue, the tokens that `ipv4_task` has freed, the payloads that
    callers of `tcp_send` have allocated, and those that a waiting caller holds for ever. -/
structure Stack where
  tcp : Tcp.System
  transmitQueue : List Ipv4TransmitParams := []
  ipv4Freed : List Nat := []
  payloads : List Nat := []
  callers : List Nat := []

/-- The choices of the environment. -/
inductive StackAction where
  /-- A step of the component. -/
  | tcp (a : Tcp.Action)
  /-- One iteration of `ipv4_task`. -/
  | ipv4Task (env : Ipv4.SendEnv)

namespace Stack

/-- One step of the stack. -/
def step (s : Stack) : StackAction → Option Stack
  | .tcp a =>
      match Tcp.step s.tcp a with
      | none => none
      | some t =>
          let accepted := Tcp.handedOver (t.g.log.drop s.tcp.g.log.length)
          some
            { s with
              tcp := t
              transmitQueue := s.transmitQueue ++ accepted
              payloads := s.payloads ++ Tcp.payloadOf s.tcp a
              callers := s.callers ++ Tcp.heldByCaller s.tcp a t }
  | .ipv4Task env =>
      match s.transmitQueue with
      | [] => none
      | params :: rest =>
          let sent := Ipv4.internalSendIpv4Packet s.tcp.g.selfNet params env
          some
            { s with
              transmitQueue := rest
              ipv4Freed := s.ipv4Freed ++ Tcp.tokens sent.freed }

/-- The stack after `ipv4_init`. -/
def boot (selfNet : NetContext) : Stack := { tcp := Tcp.boot selfNet }

end Stack

end NetStack
