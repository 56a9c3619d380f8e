import NetStack.Arp.Worker
import NetStack.Ipv4.Transmit
import NetStack.Lib.Machine

/-!
# The component among its callers

The ARP component as a machine. A step is one iteration of `arp_task`, one call of `arp_input` by
the callback of the driver, a call of `arp_get_mac_addr` up to the point where the caller waits, or
the resumption of a caller that has been notified. Tasks interleave between steps: a switch inside
one, such as between the copies of the two halves of a cache entry, is not modelled. A caller is
`internal_send_ipv4_packet` with the packet that it has built, or some other task that wants an
address.
-/

namespace NetStack.Arp
open NetStack.Lib NetStack.Eth

/-- A task that waits in `arp_get_mac_addr` for its notification, and the packet that it is to
    send then: the arguments of `internal_send_ipv4_packet` and the contents `malloc` gave it. -/
structure ArpCaller where
  request : ArpRequest
  packet : Option (Ipv4TransmitParams × Memory)

/-- What happens at the two ends of the component. -/
inductive NodeEvent where
  /-- A call of `arp_input`, and what it has added to `arp_input_queue`. -/
  | arpInput (data : ArpData) (selfIpAddr : Ipv4Addr) (queued : List ArpEntry)
  /-- The end of a call of `internal_send_ipv4_packet`. -/
  | sent (params : Ipv4TransmitParams) (sent : Ipv4.Sent)

/-- The component with its callers and the history of its ends. -/
structure System where
  selfNet : NetContext
  arp : ArpState
  callers : List ArpCaller := []
  history : List NodeEvent := []

/-- The choices of the environment. -/
inductive Action where
  /-- One iteration of `arp_task`. -/
  | arpTask (env : ArpTaskEnv)
  | arpInput (buffer : Memory) (len : BitVec 16) (env : ArpEnv)
  /-- A task that waits for nothing yet calls `arp_get_mac_addr`. -/
  | arpGetMacAddr (task : TaskHandle) (ip : Ipv4Addr)
  /-- A task that waits for nothing yet calls `internal_send_ipv4_packet`. -/
  | internalSendIpv4Packet (task : TaskHandle) (params : Ipv4TransmitParams)
      (malloc : Option Memory)
  /-- The `k`-th caller returns from `ulTaskNotifyTake`. -/
  | resume (k : Nat) (eth : EthEnv)

/-- `arp_get_mac_addr` up to `ulTaskNotifyTake`. The send of the request waits for room in the
    queue, so that it is not possible while there is none. -/
def beginRequest (s : System) (request : ArpRequest)
    (packet : Option (Ipv4TransmitParams × Memory)) : Option System :=
  if s.callers.any (·.request.task == request.task) then none
  else
    match queueSend arpRequestQueueLength s.arp.arpRequestQueue request with
    | none => none
    | some queue =>
        some
          { s with
            arp :=
              { s.arp with
                arpRequestQueue := queue
                arpQueueSet := setPost arpQueueSetLength s.arp.arpQueueSet .requestQueue }
            callers := s.callers ++ [⟨request, packet⟩] }

/-- `ulTaskNotifyTake(pdTRUE, portMAX_DELAY)` of a task that has been notified. -/
def taskNotifyTake (s : ArpState) (task : TaskHandle) : ArpState :=
  { s with notificationValue := Function.update s.notificationValue task 0 }

/-- The rest of a call after the wait: the lookup, and the transmission of the packet, if any. -/
def resumeCaller (s : System) (k : Nat) (eth : EthEnv) : Option System :=
  match s.callers[k]? with
  | none => none
  | some c =>
      if s.arp.notificationValue c.request.task = 0 then none
      else
        let woken :=
          { s with
            arp := taskNotifyTake s.arp c.request.task
            callers := s.callers.eraseIdx k }
        match c.packet with
        | none => some woken
        | some (params, heap) =>
            let env : Ipv4.SendEnv := ⟨some heap, arpGetCachedMacAddr s.arp c.request.ip, eth⟩
            some
              { woken with
                history := s.history ++
                  [.sent params (Ipv4.internalSendIpv4Packet s.selfNet params env)] }

/-- One step of the component. -/
def step (s : System) : Action → Option System
  | .arpTask env => some { s with arp := arpTaskIteration s.arp env }
  | .arpInput buffer len env =>
      let g := arpInput s.arp.toArpGlobals buffer len env
      some
        { s with
          arp := { s.arp with toArpGlobals := g }
          history := s.history ++
            [.arpInput (.read buffer) s.arp.selfIpAddr
              (g.arpInputQueue.drop s.arp.arpInputQueue.length)] }
  | .arpGetMacAddr task ip => beginRequest s ⟨ip, task⟩ none
  | .internalSendIpv4Packet task params malloc =>
      match malloc with
      | none =>
          -- the packet is given up before its address is looked up
          let env : Ipv4.SendEnv := ⟨none, .error .fail, ⟨none, .fail⟩⟩
          some
            { s with
              history := s.history ++
                [.sent params (Ipv4.internalSendIpv4Packet s.selfNet params env)] }
      | some heap => beginRequest s ⟨params.dstIpv4Addr, task⟩ (some (params, heap))
  | .resume k eth => resumeCaller s k eth

/-- The component after `arp_init`; the addresses are set before it. -/
def boot (selfNet : NetContext) : System where
  selfNet := selfNet
  arp := { selfIpAddr := selfNet.ip, selfMacAddr := selfNet.mac }

end NetStack.Arp
