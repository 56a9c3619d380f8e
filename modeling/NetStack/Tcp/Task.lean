import NetStack.Tcp.Input
import NetStack.Tcp.Commands

/-!
# One iteration of `tcp_task`

The task takes the oldest handle out of the queue set and one item out of that queue; when
the set has been empty for `TIMEOUT_CHECK_TIME` it scans the ports for timeouts.
-/

namespace NetStack.Tcp
open NetStack.Lib

/-- What the environment decides in one iteration of `tcp_task`: the outcome of the calls in
    a dequeued send, of those in each retransmission, and of creating a semaphore. -/
structure TaskEnv where
  send : SendEnv
  scan : PortIdx → UnackedIdx → SendEnv
  semaphore : Bool

/-- The request the scan builds for a timed out entry. -/
def retransmitParams (port : TcpPort) (entry : TcpUnacked) : TcpTransmitParams where
  dstIpv4Addr := port.otherIpv4Addr
  dstPort := port.otherPortNum
  srcPort := port.selfPortNum
  seqNum := entry.seqNum
  control := entry.control
  isRetransmission := true
  data := entry.data
  dataLen := entry.dataLen

/-- The entry is in use and its retransmission is due. -/
def retransmitDue (now : BitVec 32) (entry : TcpUnacked) : Bool :=
  entry.inUse && !(now - entry.sentAt < retransmitTimeout)

/-- Retransmit entry `j` of port `p`; on failure the entry is given up. -/
def retransmit (now : BitVec 32) (env : SendEnv) (p : PortIdx) (j : UnackedIdx) (g : Globals) :
    Globals :=
  let entry := (g.ports p).unacked j
  let touched := g.setUnacked p j { entry with sentAt := now }
  let r := tcpSendInternal touched (retransmitParams (g.ports p) entry) env
  if r.2 = .ok then r.1
  else
    giveSlot (r.1.setUnacked p j { (r.1.ports p).unacked j with data := none, inUse := false }) p

/-- The body of the scan's inner loop. -/
def scanUnacked (now : BitVec 32) (env : UnackedIdx → SendEnv) (p : PortIdx) (j : UnackedIdx)
    (g : Globals) : Globals :=
  if retransmitDue now ((g.ports p).unacked j) then retransmit now (env j) p j g else g

/-- The port has been in `TIME_WAIT` for longer than `TIME_WAIT_DURATION`. -/
def timeWaitOver (now : BitVec 32) (port : TcpPort) : Bool :=
  port.state == .timeWait && now - port.enteredTimeWaitAt > timeWaitDuration

/-- The body of the scan's outer loop. -/
def scanPort (now : BitVec 32) (env : PortIdx → UnackedIdx → SendEnv) (p : PortIdx)
    (g : Globals) : Globals :=
  if (g.ports p).selfPortNum = 0 then g
  else if timeWaitOver now (g.ports p) then tcpResetPort g p
  else forIdx (scanUnacked now (env p) p) g

/-- The timeout scan. -/
def scanTimeouts (g : Globals) (env : PortIdx → UnackedIdx → SendEnv) : Globals :=
  forIdx (scanPort g.tick env) g

/-- One command of `port_cmd_queue`. -/
def executeCmd (g : Globals) (cmd : TcpPortCmd) (semaphore : Bool) : Outcome Unit :=
  match cmd with
  | .createAndConnect self other addr onReceive onConnect onDisconnect =>
      (tcpConnectPortInternal g self other addr onReceive onConnect onDisconnect semaphore).bind
        fun g _ => .done g ()
  | .createAndListen self onReceive onConnect onDisconnect =>
      .done (tcpListenPortInternal g self onReceive onConnect onDisconnect semaphore).1 ()
  | .close self other addr => (tcpClosePortInternal g self other addr).bind fun g _ => .done g ()

/-- The branch of `tcp_task` for a dequeued send. -/
def executeSend (g : Globals) (params : TcpTransmitParams) (env : SendEnv) : Globals :=
  let r := tcpSendInternal g params env
  if r.2 = .ok then r.1 else r.1.warn .sendFailed

/-- What the next iteration of `tcp_task` works on. -/
inductive TaskInput where
  | scan
  | send (params : TcpTransmitParams)
  | segment (seg : Segment)
  | cmd (cmd : TcpPortCmd)
  /-- The selected queue turns out to be empty. -/
  | nothing

/-- `xQueueSelectFromSet` and `xQueueReceive`: the item and the state without it. -/
def selectInput (g : Globals) : Globals × TaskInput :=
  match g.queueSet with
  | [] => (g, .scan)
  | .sendQueue :: set =>
      match g.sendQueue with
      | [] => ({ g with queueSet := set }, .nothing)
      | params :: queue => ({ g with queueSet := set, sendQueue := queue }, .send params)
  | .inputQueue :: set =>
      match g.inputQueue with
      | [] => ({ g with queueSet := set }, .nothing)
      | event :: queue =>
          ({ g with queueSet := set, inputQueue := queue }, .segment event)
  | .portCmdQueue :: set =>
      match g.portCmdQueue with
      | [] => ({ g with queueSet := set }, .nothing)
      | cmd :: queue => ({ g with queueSet := set, portCmdQueue := queue }, .cmd cmd)

/-- What one iteration of `tcp_task` does with its input. -/
def executeInput (g : Globals) (input : TaskInput) (env : TaskEnv) : Outcome Unit :=
  match input with
  | .scan => .done (scanTimeouts g env.scan) ()
  | .send params => .done (executeSend g params env.send) ()
  | .segment seg => inputTcpInternal g seg
  | .cmd cmd => executeCmd g cmd env.semaphore
  | .nothing => .done g ()

/-- One iteration of the loop of `tcp_task`. -/
def tcpTaskIteration (g : Globals) (env : TaskEnv) : Outcome Unit :=
  executeInput (selectInput g).1 (selectInput g).2 env

end NetStack.Tcp
