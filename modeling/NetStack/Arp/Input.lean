import NetStack.Arp.Types
import NetStack.Utility.Endian

/-!
# The receive path of ARP

`arp_input` runs in the callback of the driver: an ARP reply for us goes to the worker task, an
ARP request for us is answered on the spot.
-/

namespace NetStack.Arp
open NetStack.Lib NetStack.Eth NetStack.Utility

/-- What the environment decides in one call of `arp_input`: the initial contents of the reply's
    stack buffer, and the outcome of `eth_tx`. -/
structure ArpEnv where
  stack : Memory
  eth : EthEnv

/-- The payload of a reply, built in a stack buffer with the contents `stack`. -/
def arpReplyBuf (stack : Memory) (g : ArpGlobals) (macAddr : MacAddr) (ipAddr : Ipv4Addr) :
    Memory :=
  let p := stack.store16 0 (htons 1)
  let p := p.store16 2 (htons ipv4Ethertype)
  let p := p.store 4 [6]
  let p := p.store 5 [4]
  let p := p.store16 6 (htons arpOpReply)
  let p := p.store 8 g.selfMacAddr.bytes
  let p := p.store 14 g.selfIpAddr.bytes
  let p := p.store 18 macAddr.bytes
  p.store 24 ipAddr.bytes

/-- `send_arp_reply`. -/
def sendArpReply (g : ArpGlobals) (macAddr : MacAddr) (ipAddr : Ipv4Addr) (env : ArpEnv) :
    ArpGlobals × EspErr :=
  let r := ethTx macAddr g.selfMacAddr (htons arpEthertype)
    (arpReplyBuf env.stack g macAddr ipAddr) 28 env.eth
  ({ g with
      log := g.log ++ (r.1.map ArpEvent.wifiTx).toList ++ [.sendReply macAddr ipAddr r.2] }, r.2)

/-- The hand-over of a received entry to the worker task. -/
def queueArpEntry (g : ArpGlobals) (entry : ArpEntry) : ArpGlobals :=
  match queueSend arpInputQueueLength g.arpInputQueue entry with
  | some queue =>
      { g with
        arpInputQueue := queue
        arpQueueSet := setPost arpQueueSetLength g.arpQueueSet .inputQueue
        log := g.log ++ [.queueEntry entry true] }
  | none => { g with log := g.log ++ [.queueEntry entry false] }

/-- `arp_input`; the length of the packet is an argument that it does not look at. -/
def arpInput (g : ArpGlobals) (buffer : Memory) (_len : BitVec 16) (env : ArpEnv) : ArpGlobals :=
  let data := ArpData.read buffer
  if ntohs data.hardwareType ≠ 1 then g
  else if ntohs data.protocolType ≠ ipv4Ethertype then g
  else if data.dstIp ≠ g.selfIpAddr then g
  else if ntohs data.operation = arpOpReply then queueArpEntry g ⟨data.srcIp, data.srcMac⟩
  else if ntohs data.operation = arpOpRequest then
    (sendArpReply g data.srcMac data.srcIp env).1
  else g

end NetStack.Arp
