import NetStack.Lib.FinArray
import NetStack.Tcp.Types
import Mathlib.Logic.Function.Iterate

/-!
# The state of the TCP component and its elementary updates

`Globals` is the file scope of `protocols/tcp.c` with the kernel objects behind its handles,
the application tasks that wait for a slot, and a log of what the component has done. The
log is never read by the code. The lookups at the end are those of the source.
-/

namespace NetStack.Tcp
open NetStack.Lib

/-- The variables of `tcp.c`, the contents of its queues, and the history of its effects.
    `nextAddr` is the next unused block address or semaphore handle. -/
structure Globals where
  selfNet : NetContext
  ports : PortIdx → TcpPort := fun _ => {}
  sendQueue : List TcpTransmitParams := []
  inputQueue : List TcpInputEvent := []
  portCmdQueue : List TcpPortCmd := []
  queueSet : List QueueHandle := []
  senders : List Sender := []
  nextAddr : Nat := 0
  tick : BitVec 32 := 0
  log : List Event := []

/-- How a call ends: it returns, its task waits for a resource with the effects so far in
    place, or its behaviour is undefined (a deleted semaphore, a `NULL` function). -/
inductive Outcome (α : Type) where
  | done (g : Globals) (result : α)
  | blocked (g : Globals) (on : Resource)
  | undefined

/-- Sequencing: what follows a call runs only if the call returns. -/
def Outcome.bind {α β : Type} (o : Outcome α) (k : Globals → α → Outcome β) : Outcome β :=
  match o with
  | .done g a => k g a
  | .blocked g r => .blocked g r
  | .undefined => .undefined

namespace Globals

/-- `ports[i] = p`. -/
def setPort (g : Globals) (i : PortIdx) (p : TcpPort) : Globals :=
  { g with ports := Function.update g.ports i p }

/-- `ports[i].state = state`. -/
def setState (g : Globals) (i : PortIdx) (state : TcpState) : Globals :=
  g.setPort i { g.ports i with state := state }

/-- `ports[i].unacked[j] = entry`. -/
def setUnacked (g : Globals) (i : PortIdx) (j : UnackedIdx) (entry : TcpUnacked) : Globals :=
  g.setPort i { g.ports i with unacked := Function.update (g.ports i).unacked j entry }

/-- Append to the history. -/
def emit (g : Globals) (e : Event) : Globals := { g with log := g.log ++ [e] }

/-- `ESP_LOGW`. -/
def warn (g : Globals) (w : Warning) : Globals := g.emit (.warn w)

/-- `free(data)`; freeing `NULL` does nothing. -/
def free (g : Globals) (data : Option Block) : Globals :=
  match data with
  | none => g
  | some block => g.emit (.free block.addr)

/-- Put a request at the end of `send_queue`, whose length has been checked, and post its
    handle to the queue set. -/
def pushSend (g : Globals) (params : TcpTransmitParams) : Globals :=
  { g with
    sendQueue := g.sendQueue ++ [params]
    queueSet := setPost queueSetLength g.queueSet .sendQueue }

variable (g : Globals) (i : PortIdx) (p : TcpPort) (e : Event) (data : Option Block)
  (params : TcpTransmitParams)

@[simp] theorem selfNet_setPort : (g.setPort i p).selfNet = g.selfNet := rfl
@[simp] theorem ports_setPort : (g.setPort i p).ports = Function.update g.ports i p := rfl
@[simp] theorem sendQueue_setPort : (g.setPort i p).sendQueue = g.sendQueue := rfl
@[simp] theorem senders_setPort : (g.setPort i p).senders = g.senders := rfl
@[simp] theorem nextAddr_setPort : (g.setPort i p).nextAddr = g.nextAddr := rfl
@[simp] theorem tick_setPort : (g.setPort i p).tick = g.tick := rfl
@[simp] theorem log_setPort : (g.setPort i p).log = g.log := rfl

@[simp] theorem selfNet_emit : (g.emit e).selfNet = g.selfNet := rfl
@[simp] theorem ports_emit : (g.emit e).ports = g.ports := rfl
@[simp] theorem sendQueue_emit : (g.emit e).sendQueue = g.sendQueue := rfl
@[simp] theorem senders_emit : (g.emit e).senders = g.senders := rfl
@[simp] theorem nextAddr_emit : (g.emit e).nextAddr = g.nextAddr := rfl
@[simp] theorem tick_emit : (g.emit e).tick = g.tick := rfl
@[simp] theorem log_emit : (g.emit e).log = g.log ++ [e] := rfl

@[simp] theorem selfNet_pushSend : (g.pushSend params).selfNet = g.selfNet := rfl
@[simp] theorem ports_pushSend : (g.pushSend params).ports = g.ports := rfl
@[simp] theorem sendQueue_pushSend : (g.pushSend params).sendQueue = g.sendQueue ++ [params] := rfl
@[simp] theorem senders_pushSend : (g.pushSend params).senders = g.senders := rfl
@[simp] theorem nextAddr_pushSend : (g.pushSend params).nextAddr = g.nextAddr := rfl
@[simp] theorem tick_pushSend : (g.pushSend params).tick = g.tick := rfl
@[simp] theorem log_pushSend : (g.pushSend params).log = g.log := rfl

@[simp] theorem selfNet_free : (g.free data).selfNet = g.selfNet := by cases data <;> rfl
@[simp] theorem ports_free : (g.free data).ports = g.ports := by cases data <;> rfl
@[simp] theorem sendQueue_free : (g.free data).sendQueue = g.sendQueue := by cases data <;> rfl
@[simp] theorem senders_free : (g.free data).senders = g.senders := by cases data <;> rfl
@[simp] theorem nextAddr_free : (g.free data).nextAddr = g.nextAddr := by cases data <;> rfl
@[simp] theorem tick_free : (g.free data).tick = g.tick := by cases data <;> rfl

end Globals

/-- Make the longest waiting task on the semaphore `handle` ready. -/
def wakeSender (handle : Nat) : List Sender → List Sender
  | [] => []
  | t :: ts =>
      if t.handle = handle ∧ t.ready = false then { t with ready := true } :: ts
      else t :: wakeSender handle ts

/-- `xSemaphoreGive(ports[i].unacked_slots)`. A semaphore at its maximum stays as it is and
    wakes nobody. -/
def giveSlot (g : Globals) (i : PortIdx) : Globals :=
  match (g.ports i).unackedSlots with
  | none => g
  | some sem =>
      if sem.count < maxUnacked then
        { g.setPort i { g.ports i with unackedSlots := some sem.give } with
          senders := wakeSender sem.handle g.senders }
      else g

/-- The comparison of `find_port`. -/
def TcpPort.hasKey (p : TcpPort) (selfPortNumber otherPortNumber : BitVec 16)
    (otherIpv4Address : Ipv4Addr) : Bool :=
  p.selfPortNum == selfPortNumber && p.otherPortNum == otherPortNumber &&
    p.otherIpv4Addr == otherIpv4Address

/-- `find_port`: the first slot with the key. -/
def findPort (g : Globals) (selfPortNumber otherPortNumber : BitVec 16)
    (otherIpv4Address : Ipv4Addr) : Option PortIdx :=
  firstIdx fun i => (g.ports i).hasKey selfPortNumber otherPortNumber otherIpv4Address

/-- The port a transmit request resolves to. -/
def findParamsPort (g : Globals) (params : TcpTransmitParams) : Option PortIdx :=
  findPort g params.srcPort params.dstPort params.dstIpv4Addr

/-- `find_listening_port`. -/
def findListeningPort (g : Globals) (selfPortNumber : BitVec 16) : Option PortIdx :=
  firstIdx fun i =>
    (g.ports i).selfPortNum == selfPortNumber && (g.ports i).state == .listen &&
      (g.ports i).otherIpv4Addr == ipv4AllZeroes

/-- `find_empty_unacked`. -/
def findEmptyUnacked (port : TcpPort) : Option UnackedIdx :=
  firstIdx fun j => (port.unacked j).inUse == false

/-- `get_unacked_count`. -/
def getUnackedCount (port : TcpPort) : Nat := countIdx fun j => (port.unacked j).inUse

end NetStack.Tcp
