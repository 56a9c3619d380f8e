import NetStack.Lib.Machine
import NetStack.Tcp.Task

/-!
# The component among its tasks

The TCP component as a machine. A step is one iteration of `tcp_task`, one call of the public
API by another task (the receive callback of the driver or an application), the resumption of
an application task that waits in `tcp_enqueue_reliable`, or a tick of the clock. Tasks
interleave between steps. A step whose behaviour is undefined has no successor.

A task switch inside a step is not modelled: where the loop over acknowledged entries gives a
slot back before it clears the entry's data, and in `tcp_enqueue_reliable` between the slot, the
test of the state and the place in `send_queue`. A request of more than 65515 bytes, whose
datagram length wraps in its 16 bits, has an ordinary successor, although the code writes behind
the block that it has allocated.
-/

namespace NetStack.Tcp
open NetStack.Lib

/-- Whether `tcp_task` can run. It is the only task that takes items out of `send_queue` and
    that processes acknowledgements, so that nothing wakes it once it waits. -/
inductive TaskStatus where
  | running
  | blocked (on : Resource)
  deriving DecidableEq, Repr

/-- The component with the status of its task. -/
structure System where
  g : Globals
  tcpTask : TaskStatus

/-- The choices of the environment. -/
inductive Action where
  /-- One iteration of `tcp_task`. -/
  | tcpTask (env : TaskEnv)
  /-- `tcp_send`, from a callback that `tcp_task` runs or from another task; the data, if
      any, is in a block of its own. -/
  | tcpSend (inCallback : Bool) (srcPortNum dstPortNum : BitVec 16) (dstIpv4Addr : Ipv4Addr)
      (data : Option Memory) (len : BitVec 16) (timeout : BitVec 32)
  /-- A waiting application task runs again. What its `xSemaphoreTake` returns when the
      semaphore has been deleted is up to the environment. -/
  | resumeSender (k : Nat) (deletedTake : Bool)
  /-- The wait of an application task times out. -/
  | timeoutSender (k : Nat)
  | tcpConnectPort (srcPortNum dstPortNum : BitVec 16) (dstIpv4Addr : Ipv4Addr)
      (onReceive onConnect onDisconnect : Option FnPtr)
  | tcpListenPort (srcPortNum : BitVec 16) (onReceive onConnect onDisconnect : Option FnPtr)
  | tcpClosePort (srcPortNum dstPortNum : BitVec 16) (dstIpv4Addr : Ipv4Addr)
  /-- `input_tcp`; `malloc` is the block the copy goes to, `none` when there is none. -/
  | inputTcp (buffer : Memory) (length : BitVec 16) (srcIpv4Addr : Ipv4Addr)
      (malloc : Option Memory)
  | tick

/-- The send of a command to `port_cmd_queue`, the body of the three public port functions. -/
def sendPortCmd (g : Globals) (cmd : TcpPortCmd) : Globals × EspErr :=
  match queueSend portCmdQueueLength g.portCmdQueue cmd with
  | some queue =>
      ({ g with
          portCmdQueue := queue
          queueSet := setPost queueSetLength g.queueSet .portCmdQueue }, .ok)
  | none => (g, .noMem)

/-- `tcp_connect_port`. -/
def tcpConnectPort (g : Globals) (srcPortNum dstPortNum : BitVec 16) (dstIpv4Addr : Ipv4Addr)
    (onReceive onConnect onDisconnect : Option FnPtr) : Globals × EspErr :=
  sendPortCmd g
    (.createAndConnect srcPortNum dstPortNum dstIpv4Addr onReceive onConnect onDisconnect)

/-- `tcp_listen_port`. -/
def tcpListenPort (g : Globals) (srcPortNum : BitVec 16)
    (onReceive onConnect onDisconnect : Option FnPtr) : Globals × EspErr :=
  sendPortCmd g (.createAndListen srcPortNum onReceive onConnect onDisconnect)

/-- `tcp_close_port`. -/
def tcpClosePort (g : Globals) (srcPortNum dstPortNum : BitVec 16) (dstIpv4Addr : Ipv4Addr) :
    Globals × EspErr :=
  sendPortCmd g (.close srcPortNum dstPortNum dstIpv4Addr)

/-- `input_tcp`: the buffer is copied, because the caller frees it. -/
def inputTcp (g : Globals) (buffer : Memory) (length : BitVec 16) (srcIpv4Addr : Ipv4Addr)
    (malloc : Option Memory) : Globals × EspErr :=
  match malloc with
  | none => (g, .noMem)
  | some heap =>
      let copied := heap.store 0 (buffer.load 0 length.toNat)
      match queueSend inputQueueLength g.inputQueue ⟨copied, length, srcIpv4Addr⟩ with
      | some queue =>
          ({ g with
              inputQueue := queue
              queueSet := setPost queueSetLength g.queueSet .inputQueue }, .ok)
      | none => (g, .noMem)

/-- The wait of an application task for a slot of port `i` begins. -/
def addSender (g : Globals) (i : PortIdx) (params : TcpTransmitParams) (timeout : BitVec 32) :
    Outcome Unit :=
  match (g.ports i).unackedSlots with
  | some sem =>
      let sender : Sender := ⟨params, i, sem.handle, timeout, false⟩
      .done { g with senders := g.senders ++ [sender] } ()
  | none => .undefined

/-- An application's call of `tcp_send`. The caller allocates a block for its data. When the
    call has to wait for a slot, an application task joins the waiting tasks of the
    semaphore; a callback makes `tcp_task` itself wait, which nobody but `tcp_task` can end,
    so that it waits for ever or until its timeout. -/
def callTcpSend (g : Globals) (inCallback : Bool) (srcPortNum dstPortNum : BitVec 16)
    (dstIpv4Addr : Ipv4Addr) (data : Option Memory) (len : BitVec 16) (timeout : BitVec 32) :
    Outcome Unit :=
  let block := data.map fun bytes => (⟨g.nextAddr, bytes⟩ : Block)
  let allocated := { g with nextAddr := g.nextAddr + 1 }
  match tcpSend allocated srcPortNum dstPortNum dstIpv4Addr block len timeout with
  | .done g' _ => .done g' ()
  | .blocked g' (.slots i) =>
      if inCallback = false then addSender g' i (tcpSendParams (g'.ports i) block len) timeout
      else if timeout = portMaxDelay then .blocked g' (.slots i)
      else .done (g'.free block) ()
  | .blocked g' r => .blocked g' r
  | .undefined => .undefined

/-- The application tasks without the `k`-th waiting one. -/
def dropSender (g : Globals) (k : Nat) : Globals := { g with senders := g.senders.eraseIdx k }

/-- A ready task runs on in `xSemaphoreTake`: it takes a slot if its semaphore still has one
    and waits again if not; if its semaphore is gone the environment decides. -/
def resumeSender (g : Globals) (k : Nat) (deletedTake : Bool) : Option Globals :=
  match g.senders[k]? with
  | none => none
  | some t =>
      if t.ready = false then none
      else
        match (g.ports t.port).unackedSlots with
        | some sem =>
            if sem.handle = t.handle then
              match sem.take with
              | some sem' =>
                  let taken := (dropSender g k).setPort t.port
                    { g.ports t.port with unackedSlots := some sem' }
                  some (enqueueTaken taken t.port t.handle t.params).1
              | none => some { g with senders := g.senders.set k { t with ready := false } }
            else if deletedTake then
              some (enqueueTaken (dropSender g k) t.port t.handle t.params).1
            else some ((dropSender g k).free t.params.data)
        | none =>
            if deletedTake then
              some (enqueueTaken (dropSender g k) t.port t.handle t.params).1
            else some ((dropSender g k).free t.params.data)

/-- The wait of a task ends without a slot: `tcp_enqueue_reliable` frees the data and returns
    `ESP_ERR_TIMEOUT`. A task on a deleted semaphore is never woken. -/
def timeoutSender (g : Globals) (k : Nat) : Option Globals :=
  match g.senders[k]? with
  | none => none
  | some t =>
      if t.ready = true ∨ t.timeout = portMaxDelay ∨
          (g.ports t.port).incarnation ≠ some t.handle then none
      else some ((dropSender g k).free t.params.data)

/-- The successor of a step of `tcp_task`. -/
def afterTask : Outcome Unit → Option System
  | .done g () => some ⟨g, .running⟩
  | .blocked g r => some ⟨g, .blocked r⟩
  | .undefined => none

/-- One step of the component. -/
def step (s : System) : Action → Option System
  | .tcpTask env =>
      match s.tcpTask with
      | .running => afterTask (tcpTaskIteration s.g env)
      | .blocked _ => none
  | .tcpSend inCallback src dst addr data len timeout =>
      if inCallback = true ∧ s.tcpTask ≠ .running then none
      else
        match callTcpSend s.g inCallback src dst addr data len timeout with
        | .done g () => some { s with g := g }
        | .blocked g r => some ⟨g, .blocked r⟩
        | .undefined => none
  | .resumeSender k deletedTake => (resumeSender s.g k deletedTake).map ({ s with g := · })
  | .timeoutSender k => (timeoutSender s.g k).map ({ s with g := · })
  | .tcpConnectPort src dst addr onReceive onConnect onDisconnect =>
      some { s with g := (tcpConnectPort s.g src dst addr onReceive onConnect onDisconnect).1 }
  | .tcpListenPort src onReceive onConnect onDisconnect =>
      some { s with g := (tcpListenPort s.g src onReceive onConnect onDisconnect).1 }
  | .tcpClosePort src dst addr => some { s with g := (tcpClosePort s.g src dst addr).1 }
  | .inputTcp buffer length src malloc =>
      some { s with g := (inputTcp s.g buffer length src malloc).1 }
  | .tick => some { s with g := { s.g with tick := s.g.tick + 1 } }

/-- The component after `init_tcp` has created the queues and the task. -/
def boot (selfNet : NetContext) : System := ⟨{ selfNet := selfNet }, .running⟩

end NetStack.Tcp
