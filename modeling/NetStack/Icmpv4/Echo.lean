import NetStack.Ipv4.Types
import NetStack.Utility.Checksum

/-!
# Echo replies

`protocols/icmpv4.c`: an echo request is answered with its own identifier, sequence number and
data; everything else is ignored.
-/

namespace NetStack.Icmpv4
open NetStack.Lib NetStack.Utility

/-- `ICMP_PROTOCOL_NUMBER`. -/
def icmpProtocolNumber : BitVec 8 := 1

/-- `struct icmpv4_header_t`, its 16-bit fields as they stand in memory. -/
structure Icmpv4Header where
  type : BitVec 8
  code : BitVec 8
  checksum : BitVec 16
  id : BitVec 16
  seqNum : BitVec 16

/-- `memcpy(&header, buffer + off, sizeof(header))`. -/
def Icmpv4Header.read (buffer : Memory) (off : Nat) : Icmpv4Header where
  type := buffer off
  code := buffer (off + 1)
  checksum := buffer.load16 (off + 2)
  id := buffer.load16 (off + 4)
  seqNum := buffer.load16 (off + 6)

/-- `sizeof(struct icmpv4_header_t)`. -/
def icmpv4HeaderSize : BitVec 16 := 8

/-- What the environment decides in one call of `send_icmpv4_ping_reply`: the block `malloc`
    returns, with its initial contents, and whether the IPv4 queue exists and has room. -/
structure PingEnv where
  malloc : Option Block
  ipv4Accepts : Bool

/-- The reply in a block with the initial contents `heap`. The length is 16 bits wide for the
    checksum and for IPv4. -/
def pingReplyPacket (heap : Memory) (id seqNum : BitVec 16) (data : Memory) (dataLen : BitVec 16) :
    Memory :=
  let m := heap.store 0 [0]
  let m := m.store 1 [0]
  let m := m.store16 2 0
  let m := m.store16 4 (htons id)
  let m := m.store16 6 (htons seqNum)
  let m := m.store 8 (data.load 0 dataLen.toNat)
  m.store16 2 (htons (netChecksum m (icmpv4HeaderSize + dataLen)))

/-- `send_icmpv4_ping_reply`: what it puts into the IPv4 queue, if anything, and its result. -/
def sendIcmpv4PingReply (selfNet : NetContext) (dstIpv4Addr : Ipv4Addr) (id seqNum : BitVec 16)
    (data : Memory) (dataLen : BitVec 16) (env : PingEnv) : Option Ipv4TransmitParams × EspErr :=
  match env.malloc with
  | none => (none, .noMem)
  | some block =>
      let params : Ipv4TransmitParams :=
        { srcIpv4Addr := selfNet.ip
          dstIpv4Addr := dstIpv4Addr
          protocol := icmpProtocolNumber
          data := some ⟨block.addr, pingReplyPacket block.bytes id seqNum data dataLen⟩
          dataLen := icmpv4HeaderSize + dataLen }
      if env.ipv4Accepts then (some params, .ok) else (none, .fail)

/-- `icmpv4_input` on a whole IPv4 packet: what it puts into the IPv4 queue, if anything. -/
def icmpv4Input (selfNet : NetContext) (buffer : Memory) (bufferLen : BitVec 16) (env : PingEnv) :
    Option Ipv4TransmitParams :=
  if bufferLen < ipv4HeaderSize + icmpv4HeaderSize then none
  else
    let ipv4Header := Ipv4Header.read buffer
    let header := Icmpv4Header.read buffer 20
    if header.type = 8 ∧ header.code = 0 then
      let payloadLen := ntohs ipv4Header.totalLength - ipv4HeaderSize - icmpv4HeaderSize
      (sendIcmpv4PingReply selfNet ipv4Header.srcIpv4Addr (ntohs header.id) (ntohs header.seqNum)
        (buffer.advance 28) payloadLen env).1
    else none

end NetStack.Icmpv4
